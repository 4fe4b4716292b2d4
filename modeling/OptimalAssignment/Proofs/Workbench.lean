import Mathlib
import OptimalAssignment.Workbench
import OptimalAssignment.Proofs.Cost.Exact

/-!
Histories at the workbench. Reductions and adjustments, under whatever flags and in whatever order,
only take a price from each row and from each column; all other operations leave the matrix alone.
So a history changes the cost of all permutations by one amount, which the answers on the way add up
to, and the given costs stay.
-/
namespace OptimalAssignment

open CostMatrix Grid

/-- Whether the given costs are those of a grid, and the working values what is left of them by
prices of rows and columns that come to a given amount. -/
structure CostMatrix.Explained (n : Nat) (g : Grid ℚ) (lost : ℚ) (m : CostMatrix ℚ) : Prop where
  given_eq : m.given = g
  square : m.values.IsSquare n
  priced : ∃ u v : Fin n → ℚ, Repriced u v g m.values ∧ ∑ i, u i + ∑ j, v j = lost

namespace CostMatrix.Explained

variable {n : Nat} {g : Grid ℚ} {lost least : ℚ} {m m' : CostMatrix ℚ} {c : Coverage}

theorem ofGrid (hg : g.IsSquare n) : (CostMatrix.ofGrid g).Explained n g 0 :=
  ⟨rfl, hg, 0, 0, .refl g, by simp⟩

theorem further (h : m.Explained n g lost) {values : Grid ℚ} {more : ℚ}
    (hsquare : values.IsSquare n)
    (hpriced : ∃ u v : Fin n → ℚ, Repriced u v m.values values ∧ ∑ i, u i + ∑ j, v j = more) :
    CostMatrix.Explained n g (lost + more) { m with values } := by
  obtain ⟨u, v, huv, rfl⟩ := h.priced
  obtain ⟨u', v', huv', rfl⟩ := hpriced
  refine ⟨h.given_eq, hsquare, _, _, huv.trans huv', ?_⟩
  simp only [Pi.add_apply, Finset.sum_add_distrib]
  ring

theorem reduce (h : m.Explained n g lost) : m.reduce.1.Explained n g (lost + m.reduce.2) :=
  h.further (isSquare_reduce h.square) (exists_repriced_reduce h.square)

theorem adjust (h : m.Explained n g lost) (hadjust : m.adjust c = .ok (m', least)) :
    m'.Explained n g (lost + least * (c.rows.count false - c.cols.count true)) := by
  obtain ⟨hc, rfl⟩ := adjust_eq_ok h.square hadjust
  obtain ⟨u, v, hpriced, hsum⟩ := exists_repriced_shift h.square hc least
  refine h.further (isSquare_shift h.square hc least) ⟨u, v, hpriced, hsum.trans ?_⟩
  have hrows : (c.rows.count true : ℚ) + c.rows.count false = n := by
    rw [← hc.length_rows, ← Nat.cast_add, List.count_true_add_count_false]
  rw [Coverage.numCoveredRows, Coverage.numCoveredCols, ← hrows]
  ring

/-- Every permutation loses the same. -/
theorem along (h : m.Explained n g lost) (p : Equiv.Perm (Fin n)) :
    g.along p - m.values.along p = lost := by
  obtain ⟨u, v, hpriced, rfl⟩ := h.priced
  rw [hpriced.along p, add_sub_cancel_right]

end CostMatrix.Explained

namespace Workbench

variable {α : Type} {β : Type} {b : Workbench α}

/-! ### Operations that leave the matrix alone -/

theorem change_matrix (result : Except Fault β) {put : β → Workbench α}
    (h : ∀ x, (put x).matrix = b.matrix) : (b.change result put).1.matrix = b.matrix := by
  cases result with
  | ok x => exact h x
  | error fault => rfl

theorem query_fst (result : Except Fault β) (a : β → Answer α) : (b.query result a).1 = b := by
  cases result <;> rfl

theorem halfway_matrix (m : Matching Int) (stuck : Option Fault) :
    (b.halfway m stuck).1.matrix = b.matrix := by
  cases stuck <;> rfl

theorem onMatrix_matrix {act : CostMatrix α → Outcome α} (h : ∀ m, (act m).1.matrix = b.matrix) :
    (b.onMatrix act).1.matrix = b.matrix := by
  rw [onMatrix]
  split
  · exact h _
  · rfl

variable [Scalar α]

theorem perform_matrix {task : Task} (hr : task ≠ .reduce) (ha : task ≠ .adjust) :
    (b.perform task).1.matrix = b.matrix := by
  cases task with
  | reduce => contradiction
  | adjust => contradiction
  | zeroMask => exact onMatrix_matrix fun _ => rfl
  | greedy => exact onMatrix_matrix fun _ => halfway_matrix _ _
  | greedyMask => exact halfway_matrix _ _
  | select | unselect | prepare | coverRow | uncoverCol | coverSelected =>
    exact change_matrix _ fun _ => rfl
  | rowHas | colHas => exact congrArg matrix (query_fst _ _)
  | findZero | costOf => exact onMatrix_matrix fun _ => congrArg matrix (query_fst _ _)
  | applyPath => exact halfway_matrix _ _
  | buildPath row col =>
    rw [perform]
    split <;> rfl
  | clearPrepared | numSelected | selectedPairs | preparedPairs | setRows | setCols | isOptimal
  | numCoveredCols | uncovered | setPath | describe => rfl

section Matrix

variable {m m' : CostMatrix α} {least : α} {fault : Fault} (hm : b.matrix = some m)
include hm

theorem perform_reduce : b.perform .reduce =
    ({ b with matrix := some m.reduce.1 }, .ok (.cost m.reduce.2)) := by
  simp only [perform, onMatrix, hm]

theorem perform_adjust_ok (h : m.adjust b.coverage = .ok (m', least)) :
    b.perform .adjust = ({ b with matrix := some m' }, .ok (.cost least)) := by
  simp only [perform, onMatrix, hm, h]

theorem perform_adjust_error (h : m.adjust b.coverage = .error fault) :
    b.perform .adjust = (b, .error (.fault fault)) := by
  simp only [perform, onMatrix, hm, h]

end Matrix

/-! ### Histories -/

/-- The workbench after some operations. -/
def afterAll (b : Workbench α) (tasks : List Task) : Workbench α :=
  tasks.foldl (fun b task => (b.perform task).1) b

/-- The workbench with other cover flags. -/
def covering (c : Coverage) (b : Workbench α) : Workbench α :=
  { b with coverage := c }

section Exact

variable {n : Nat} {g : Grid ℚ} {lost : ℚ} {b : Workbench ℚ} {c : Coverage}

/-- The cost that an operation answers; zero if it answers none. -/
def answered : Except BenchFault (Answer ℚ) → ℚ
  | .ok (.cost x) => x
  | _ => 0

/-- What an operation takes from every permutation: the offset of a reduction, and the value of an
adjustment once for each uncovered row less the covered columns. -/
def lostBy (b : Workbench ℚ) : Task → ℚ
  | .reduce => answered (b.perform .reduce).2
  | .adjust => answered (b.perform .adjust).2 *
      (b.coverage.rows.count false - b.coverage.cols.count true)
  | _ => 0

/-- What a history takes from every permutation. -/
def lostIn (b : Workbench ℚ) : List Task → ℚ
  | [] => 0
  | task :: tasks => b.lostBy task + lostIn (b.perform task).1 tasks

/-- Whether the matrix on the workbench is explained. -/
def Explained (n : Nat) (g : Grid ℚ) (lost : ℚ) (b : Workbench ℚ) : Prop :=
  ∃ m, b.matrix = some m ∧ m.Explained n g lost

theorem lostBy_eq_zero {task : Task} (hr : task ≠ .reduce) (ha : task ≠ .adjust) :
    b.lostBy task = 0 := by
  cases task with
  | reduce => contradiction
  | adjust => contradiction
  | _ => rfl

theorem Explained.perform (h : b.Explained n g lost) (task : Task) :
    (b.perform task).1.Explained n g (lost + b.lostBy task) := by
  obtain ⟨m, hm, hexplained⟩ := h
  by_cases hr : task = .reduce
  · subst hr
    rw [lostBy, perform_reduce hm]
    exact ⟨_, rfl, hexplained.reduce⟩
  by_cases ha : task = .adjust
  · subst ha
    cases hadjust : m.adjust b.coverage with
    | error fault =>
      have hlost : b.lostBy .adjust = 0 := by
        rw [lostBy, perform_adjust_error hm hadjust]
        exact zero_mul _
      rw [hlost, add_zero, perform_adjust_error hm hadjust]
      exact ⟨m, hm, hexplained⟩
    | ok result =>
      rw [lostBy, perform_adjust_ok hm hadjust]
      exact ⟨result.1, rfl, hexplained.adjust hadjust⟩
  · rw [lostBy_eq_zero hr ha, add_zero]
    exact ⟨m, (perform_matrix hr ha).trans hm, hexplained⟩

theorem Explained.afterAll (h : b.Explained n g lost) (tasks : List Task) :
    (b.afterAll tasks).Explained n g (lost + b.lostIn tasks) := by
  induction tasks generalizing b lost with
  | nil => simpa [Workbench.afterAll, lostIn] using h
  | cons task tasks ih =>
    rw [lostIn, ← add_assoc]
    exact ih (h.perform task)

/-- Whatever is done at the workbench, the given costs stay, and the working values are what prices
of rows and columns leave of them; so all permutations lose one amount, which the answers add up to.
An adjustment under any flags fails exactly if no cell is uncovered, and then changes nothing;
otherwise no uncovered cell is negative afterwards, one is zero, and singly covered cells stay. -/
theorem history_explained (hg : g.IsSquare n) (tasks : List Task)
    (hb : (ofGrid g).afterAll tasks = b) :
    ∃ m, b.matrix = some m ∧ m.given = g ∧
      (∃ u v : Fin n → ℚ,
        (∀ i j : Fin n, m.values.entry i j = g.entry i j - u i - v j) ∧
        ∑ i, u i + ∑ j, v j = (ofGrid g).lostIn tasks) ∧
      (∀ p : Equiv.Perm (Fin n), g.along p - m.values.along p = (ofGrid g).lostIn tasks) ∧
      ∀ c : Coverage, c.Fits n →
        ((∀ i < n, ∀ j < n, c.CoversRow i ∨ c.CoversCol j) →
          (b.covering c).perform .adjust = (b.covering c, .error (.fault .nothingUncovered))) ∧
        ((∃ i < n, ∃ j < n, ¬ c.CoversRow i ∧ ¬ c.CoversCol j) →
          ∃ m' least, (b.covering c).perform .adjust =
              ({ b.covering c with matrix := some m' }, .ok (.cost least)) ∧
            (∀ i < n, ∀ j < n, ¬ c.CoversRow i → ¬ c.CoversCol j → 0 ≤ m'.values.entry i j) ∧
            (∃ i < n, ∃ j < n, ¬ c.CoversRow i ∧ ¬ c.CoversCol j ∧ m'.values.entry i j = 0) ∧
            ∀ i < n, ∀ j < n, (c.CoversRow i ↔ ¬ c.CoversCol j) →
              m'.values.entry i j = m.values.entry i j) := by
  have hstart : (ofGrid g).Explained n g 0 := ⟨_, rfl, CostMatrix.Explained.ofGrid hg⟩
  obtain ⟨m, hm, hexplained⟩ := hstart.afterAll tasks
  rw [zero_add] at hexplained
  rw [hb] at hm
  refine ⟨m, hm, hexplained.given_eq, hexplained.priced, hexplained.along, fun c hc => ⟨?_, ?_⟩⟩
  · intro hall
    exact perform_adjust_error (b := b.covering c) hm (adjust_eq_error hc hall)
  · rintro ⟨i, hi, j, hj, hri, hcj⟩
    refine ⟨_, _, perform_adjust_ok (b := b.covering c) hm
      (adjust_eq hexplained.square hc hi hj hri hcj), ?_, ?_, ?_⟩
    · exact fun i hi j hj => shift_nonneg hexplained.square hc hi hj
    · exact exists_shift_zero hexplained.square hc hi hj hri hcj
    · intro i hi j hj hsingle
      exact (entry_shift hexplained.square hc hi hj _).trans (moved_covered hsingle)

theorem history_explained_two :
    Grid.IsSquare 2 ([[4, 1], [2, 3]] : Grid ℚ) ∧
      ∃ m, ((ofGrid ([[4, 1], [2, 3]] : Grid ℚ)).afterAll
          [.adjust, .setRows [true, false], .setCols [true, false], .adjust, .reduce]).matrix =
            some m ∧
        m.given = [[4, 1], [2, 3]] ∧
        ∀ p : Equiv.Perm (Fin 2), Grid.along [[4, 1], [2, 3]] p - m.values.along p = 3 := by
  have hsquare : Grid.IsSquare 2 ([[4, 1], [2, 3]] : Grid ℚ) := by decide
  have hlost : (ofGrid ([[4, 1], [2, 3]] : Grid ℚ)).lostIn
      [.adjust, .setRows [true, false], .setCols [true, false], .adjust, .reduce] = 3 := by
    decide +kernel
  obtain ⟨m, hm, hgiven, -, halong, -⟩ := history_explained hsquare
    [.adjust, .setRows [true, false], .setCols [true, false], .adjust, .reduce] rfl
  rw [hlost] at halong
  exact ⟨hsquare, m, hm, hgiven, halong⟩

end Exact

end Workbench

end OptimalAssignment
