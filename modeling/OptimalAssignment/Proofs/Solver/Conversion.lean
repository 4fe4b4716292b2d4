import Mathlib
import OptimalAssignment.Proofs.Cost.Conversion
import OptimalAssignment.Proofs.Solver.Completion

/-!
Runs over converted costs. If a conversion respects what adjustments move, it turns a run step by
step into the run on any grid whose reduced values are the converted ones; the given costs play no
part until the end. So a run over costs that obey no law is complete, as long as it is the image of
a run over lawful costs.
-/
namespace OptimalAssignment

open CostMatrix Scalar

variable {α β : Type} [Scalar α] [Scalar β] {f : β → α}

/-- A snapshot over converted costs. -/
def Snapshot.map (f : β → α) (s : Snapshot β) : Snapshot α where
  step := s.step
  phase := s.phase
  values := s.values.map f
  rows := s.rows
  cols := s.cols
  selected := s.selected
  prepared := s.prepared
  preparedPath := s.preparedPath
  selectedPath := s.selectedPath
  adjustment := f s.adjustment

namespace Work

variable {n row col : Nat} {w w' : Work β} {entries : List (Work β)} {passes flips : Nat}

/-- The data of a run over converted costs. -/
def map (f : β → α) (w : Work β) : Work α where
  matrix := ⟨w.matrix.given.map f, w.matrix.values.map f⟩
  matching := w.matching
  coverage := w.coverage
  path := w.path
  phase := w.phase
  step := w.step
  lastAdjustment := f w.lastAdjustment

/-- The data of a run over converted costs, with other given costs. -/
def onto (f : β → α) (given : Grid α) (w : Work β) : Work α :=
  { w.map f with matrix := ⟨given, w.matrix.values.map f⟩ }

omit [Scalar α] [Scalar β] in
theorem Aligned.onto (h : w.Aligned n) (f : β → α) (given : Grid α) :
    (w.onto f given).Aligned n :=
  ⟨Grid.isSquare_map h.square f, h.ready⟩

/-- Whether a conversion respects every value that adjustments move. -/
def Respected (f : β → α) (entries : List (Work β)) : Prop :=
  ∀ e ∈ entries, e.phase = some .adjustPotentials → Respects f e.lastAdjustment

/-- A pass respects what it moves, if the least value that its one adjustment can move is. -/
theorem Pass.respected (hp : Pass w entries w' flips)
    (h : ∀ row col sel, uncoveredZero? w.coverage w.matrix.values = some (row, col) →
      w.matching.col? row = some sel →
      Respects f (leastUncovered (w.coverage.exchanged row sel) w.matrix.values)) :
    Respected f entries := by
  intro e he hphase
  cases hp with
  | @cover row col sel w₁ w₂ w₃ zero matched eq₁ eq₂ eq₃ =>
    simp only [List.mem_cons, List.not_mem_nil, or_false] at he
    rcases he with rfl | rfl | rfl
    · simp [eq₁, found, into] at hphase
    · simp [eq₂, swapped, into] at hphase
    · rw [eq₃, eq₂, eq₁]
      exact h row col sel zero matched
  | augment _ _ eq₁ _ _ eq₂ eq₃ =>
    simp only [List.mem_cons, List.not_mem_nil, or_false] at he
    rcases he with rfl | rfl | rfl
    · simp [eq₁, found, into] at hphase
    · simp [eq₂, pathed, into] at hphase
    · simp [eq₃, flipped, into] at hphase

/-- If an invariant makes every pass respect what it moves, so do all passes. -/
theorem Passes.respected [LinearOrder β] [LawfulScalar β] {I : Work β → Prop}
    (hstep : ∀ w entries w' flips, w.IsReady n → w.coverage.isOptimal = false →
      Pass w entries w' flips → I w → Respected f entries ∧ I w')
    (hp : Passes w entries w' passes flips) (h : w.IsReady n) (hi : I w) :
    Respected f entries ∧ I w' := by
  induction hp with
  | none => exact ⟨fun _ he => absurd he List.not_mem_nil, hi⟩
  | more ho first _ ih =>
    obtain ⟨hfirst, hi₁⟩ := hstep _ _ _ _ h ho first hi
    obtain ⟨hlater, hlast⟩ := ih (first.ready h ho) hi₁
    exact ⟨fun e he => (List.mem_append.mp he).elim (hfirst e) (hlater e), hlast⟩

variable (hf : IsConversion f) (given : Grid α)
include hf

theorem lowered_onto (hleast : Respects f (leastUncovered w.coverage w.matrix.values)) :
    w.lowered.onto f given = (w.onto f given).lowered := by
  have hmoved : leastUncovered w.coverage (w.matrix.values.map f) =
      f (leastUncovered w.coverage w.matrix.values) := leastUncovered_map hf
  have hvalues : shift w.coverage (f (leastUncovered w.coverage w.matrix.values))
      (w.matrix.values.map f) =
        (shift w.coverage (leastUncovered w.coverage w.matrix.values) w.matrix.values).map f :=
    shift_map hleast
  simp only [lowered, into, onto, map, hmoved, hvalues]

theorem Pass.onto (hp : Pass w entries w' flips) (hr : Respected f entries) :
    Pass (w.onto f given) (entries.map (Work.onto f given)) (w'.onto f given) flips := by
  cases hp with
  | @cover row col sel w₁ w₂ w₃ zero matched eq₁ eq₂ eq₃ =>
    have hleast := hr w₃ (by simp) (by rw [eq₃]; rfl)
    rw [eq₃] at hleast
    refine .cover ((uncoveredZero?_map hf).trans zero) matched ?_ ?_ ?_
    · rw [eq₁]
      rfl
    · rw [eq₂]
      rfl
    · rw [eq₃, lowered_onto hf given hleast]
      rfl
  | @augment row col last prepared selected m w₁ w₂ w₃ zero free eq₁ chain flip eq₂ eq₃ =>
    refine .augment (m := m) ((uncoveredZero?_map hf).trans zero) free ?_ chain flip ?_ ?_
    · rw [eq₁]
      rfl
    · rw [eq₂]
      rfl
    · rw [eq₃]
      rfl

theorem Passes.onto (hp : Passes w entries w' passes flips) (hr : Respected f entries) :
    Passes (w.onto f given) (entries.map (Work.onto f given)) (w'.onto f given) passes flips := by
  induction hp with
  | none => exact .none
  | more ho first _ ih =>
    rw [List.map_append]
    exact .more ho (first.onto hf given fun e he => hr e (List.mem_append_left _ he))
      (ih fun e he => hr e (List.mem_append_right _ he))

theorem snapshot_onto (w : Work β) : (w.onto f given).snapshot = w.snapshot.map f := by
  simp only [snapshot, onto, map, Snapshot.map, apply_ite f, hf.map_zero]
  rfl

end Work

/-! ### Whole runs -/

namespace Run

variable {g : Grid β} {g' : Grid α} {w : Work β} {entries : List (Work β)} {passes flips : Nat}
variable (hf : IsConversion f) (hlength : g'.length = g.length)
  (hreduce : (ofGrid g').reduce.1.values = (ofGrid g).reduce.1.values.map f)
include hf hlength hreduce

omit hf hlength in
theorem reduce_fst_onto : (ofGrid g').reduce.1 = ⟨g', (ofGrid g).reduce.1.values.map f⟩ := by
  rw [← hreduce]
  rfl

theorem initial_onto : initial g' = initial g := by
  rw [initial, initial, reduce_fst_onto hreduce, ← zeroMask_map hf, hlength]
  rfl

theorem reduced_onto : (Work.reduced g).onto f g' = Work.reduced g' := by
  simp only [Work.reduced, hlength, reduce_fst_onto hreduce, Work.start, Work.into, Work.onto,
    Work.map, hf.map_zero]

theorem selected_onto : (Work.selected g).onto f g' = Work.selected g' := by
  rw [Work.selected, Work.selected, ← reduced_onto hf hlength hreduce,
    initial_onto hf hlength hreduce, hlength]
  rfl

theorem Opened.onto (h : Opened g) : Opened g' := by
  have hinitial := initial_onto hf hlength hreduce
  refine ⟨by rw [hinitial, h.fault_eq], fun row => by rw [hinitial, h.marks], ?_, ?_⟩
  · intro row col hs
    rw [hinitial] at hs
    have hmask : (ofGrid g').reduce.1.zeroMask = (ofGrid g).reduce.1.zeroMask := by
      rw [reduce_fst_onto hreduce, ← zeroMask_map hf]
      rfl
    rw [hmask]
    exact h.selected row col hs
  · rw [hlength, ← selected_onto hf hlength hreduce]
    exact h.aligned.onto f g'

theorem snapshots_onto (p : Equiv.Perm (Fin g.length)) (q : Equiv.Perm (Fin g'.length)) :
    (completed g' (entries.map (Work.onto f g')) (w.onto f g') q passes flips).snapshots =
      (completed g entries w p passes flips).snapshots.map (Snapshot.map f) := by
  have hlast : (w.onto f g').into .done = (w.into .done).onto f g' := rfl
  simp only [snapshots, completed, ← reduced_onto hf hlength hreduce,
    ← selected_onto hf hlength hreduce, hlast, List.map_cons, List.map_append, List.map_map,
    List.map_nil, Function.comp_def, Work.snapshot_onto hf]

/-- The run on a grid whose reduced values are converted ones is the converted run. -/
theorem solveStandard_onto [LinearOrder β] [LawfulScalar β] (hg : g.IsSquare g.length)
    (hg' : g'.IsSquare g'.length) (hrespected : ∀ entries w passes flips,
      (Work.selected g).next.Passes entries w passes flips → Work.Respected f entries) :
    ∃ entries w p passes flips, (Work.selected g).next.Passes entries w passes flips ∧
      (∀ i : Fin g.length, w.matching.col? i = some (p i : Nat)) ∧
      solveStandard g = completed g entries w p passes flips ∧
      solveStandard g' = completed g' (entries.map (Work.onto f g')) (w.onto f g')
        ((finCongr hlength.symm).permCongr p) passes flips := by
  obtain ⟨entries, w, p, passes, flips, search, optimal, matched, hrun, -, hpasses⟩ :=
    solveStandard_eq hg
  refine ⟨entries, w, p, passes, flips, search, matched, hrun, ?_⟩
  have hsearch : (Work.selected g').next.Passes (entries.map (Work.onto f g')) (w.onto f g')
      passes flips := by
    rw [← selected_onto hf hlength hreduce]
    exact search.onto hf g' (hrespected _ _ _ _ search)
  have hmatched : ∀ i : Fin g'.length, (w.onto f g').matching.col? i =
      some ((finCongr hlength.symm).permCongr p i : Nat) := fun i => matched (Fin.cast hlength i)
  have hbudget : passes ≤ (Ceiling.standard g'.length).budget := by
    have hlarge : (Ceiling.standard g'.length).budget = 2 * (g.length * (g.length + 1)) := by
      rw [hlength, ← Nat.mul_assoc]
      rfl
    omega
  exact ((opened hg).onto hf hlength hreduce).solve_of_complete hg' hsearch optimal hmatched hbudget

omit hlength hreduce in
/-- The run on a converted grid returns the permutation of the run on the grid. -/
theorem solveStandard_map [LinearOrder β] [LawfulScalar β]
    (hreduce : (ofGrid (g.map f)).reduce.1.values = (ofGrid g).reduce.1.values.map f)
    (hg : g.IsSquare g.length)
    (hrespected : ∀ entries w passes flips,
      (Work.selected g).next.Passes entries w passes flips → Work.Respected f entries) :
    ∃ entries w passes flips, (Work.selected g).next.Passes entries w passes flips ∧
      ∃ (p : Equiv.Perm (Fin g.length)) (a : Assignment α),
        (∀ i : Fin g.length, w.matching.col? i = some (p i : Nat)) ∧
        (solveStandard (g.map f)).result = .ok a ∧ a.columns = Columns.ofPerm p := by
  have hlength : (g.map f).length = g.length := List.length_map _
  have hsquare : (g.map f).IsSquare (g.map f).length := by
    rw [hlength]
    exact Grid.isSquare_map hg f
  obtain ⟨entries, w, p, passes, flips, search, matched, -, hrun⟩ :=
    solveStandard_onto hf hlength hreduce hg hsquare hrespected
  exact ⟨entries, w, passes, flips, search, p, _, matched, congrArg Run.result hrun,
    Columns.ofPerm_permCongr hlength.symm p⟩

end Run

end OptimalAssignment
