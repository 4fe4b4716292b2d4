import Mathlib
import OptimalAssignment.Proofs.Solver.Completion
import OptimalAssignment.Proofs.Solver.Duality

/-!
Optimal assignments. Over exact costs the permutation returned is no dearer than any other, and the
snapshots of the run bear witness to it: they add up to a lower bound on all permutations that never
falls and ends at the cost returned.
-/
namespace OptimalAssignment

open Matching CostMatrix

/-- What the snapshots of a run prove about the permutation that it returns. -/
structure Assignment.Certified (g : Grid ℚ) (p : Equiv.Perm (Fin g.length))
    (snapshots : List (Snapshot ℚ)) (a : Assignment ℚ) : Prop where
  columns_eq : a.columns = Columns.ofPerm p
  cost_eq : a.cost = g.along p
  balanced : ∀ before shown after, snapshots = before ++ shown :: after →
    ∀ q : Equiv.Perm (Fin g.length),
      g.along q = Snapshot.bound a.offset (before ++ [shown]) + shown.values.along q
  gain_nonneg : ∀ shown ∈ snapshots, 0 ≤ shown.gain
  sound : ∀ shown ∈ snapshots, shown.phase ≠ some .reduce →
    shown.size = g.length ∧ shown.Sound
  tight : ∀ shown ∈ snapshots, shown.phase = some .done → shown.values.along p = 0
  finished : ∃ before shown, snapshots = before ++ [shown] ∧ shown.phase = some .done

namespace Assignment.Certified

variable {g : Grid ℚ} {p : Equiv.Perm (Fin g.length)} {snapshots before after : List (Snapshot ℚ)}
variable {a : Assignment ℚ} {shown : Snapshot ℚ}

section Shown

variable (h : a.Certified g p snapshots) (hs : snapshots = before ++ shown :: after)
include h hs

theorem along_nonneg (hphase : shown.phase ≠ some .reduce) (q : Equiv.Perm (Fin g.length)) :
    0 ≤ shown.values.along q := by
  obtain ⟨hsize, hsound⟩ := h.sound shown (by simp [hs]) hphase
  exact Grid.along_nonneg hsound.nonneg (hsize ▸ hsound.square) q

/-- No permutation costs less than the bound. -/
theorem bound_le (hphase : shown.phase ≠ some .reduce) (q : Equiv.Perm (Fin g.length)) :
    Snapshot.bound a.offset (before ++ [shown]) ≤ g.along q := by
  rw [h.balanced before shown after hs q]
  exact le_add_of_nonneg_right (h.along_nonneg hs hphase q)

theorem bound_eq_cost (hphase : shown.phase = some .done) :
    Snapshot.bound a.offset (before ++ [shown]) = a.cost := by
  rw [h.cost_eq, h.balanced before shown after hs p, h.tight shown (by simp [hs]) hphase, add_zero]

/-- At the end exactly the optimal permutations pick nothing but zeros. -/
theorem optimal_iff (hphase : shown.phase = some .done) (q : Equiv.Perm (Fin g.length)) :
    (∀ r : Equiv.Perm (Fin g.length), g.along q ≤ g.along r) ↔
      ∀ i : Fin g.length, shown.values.entry i (q i) = 0 := by
  have hreduce : shown.phase ≠ some .reduce := hphase.trans_ne (by decide)
  obtain ⟨hsize, hsound⟩ := h.sound shown (by simp [hs]) hreduce
  have hsquare : shown.values.IsSquare g.length := hsize ▸ hsound.square
  rw [← Grid.along_eq_zero_iff hsound.nonneg hsquare]
  have hq := h.balanced before shown after hs q
  constructor
  · intro hle
    have hp := h.balanced before shown after hs p
    have htight := h.tight shown (by simp [hs]) hphase
    have hcost := hle p
    have hnonneg := h.along_nonneg hs hreduce q
    linarith
  · intro hzero r
    rw [hq, hzero, add_zero]
    exact h.bound_le hs hreduce r

end Shown

/-- The bound never falls. -/
theorem bound_mono {middle : List (Snapshot ℚ)} (h : a.Certified g p snapshots)
    (hs : snapshots = before ++ middle ++ after) :
    Snapshot.bound a.offset before ≤ Snapshot.bound a.offset (before ++ middle) := by
  rw [← Snapshot.bound_append]
  refine le_add_of_nonneg_right (List.sum_nonneg fun x hx => ?_)
  obtain ⟨shown, hshown, rfl⟩ := List.mem_map.mp hx
  exact h.gain_nonneg shown (by simp [hs, hshown])

theorem cost_le (h : a.Certified g p snapshots) (q : Equiv.Perm (Fin g.length)) :
    a.cost ≤ g.along q := by
  obtain ⟨before, shown, hs, hphase⟩ := h.finished
  rw [← h.bound_eq_cost hs hphase]
  exact h.bound_le hs (hphase.trans_ne (by decide)) q

end Assignment.Certified

/-! ### Runs -/

theorem Run.exists_certified {g : Grid ℚ} (hg : g.IsSquare g.length) :
    ∃ (a : Assignment ℚ) (p : Equiv.Perm (Fin g.length)), (solveStandard g).result = .ok a ∧
      a.Certified g p (solveStandard g).snapshots := by
  have hsnapshots : ∀ shown ∈ (solveStandard g).snapshots, shown.phase ≠ some .reduce →
      shown.size = g.length ∧ shown.Sound := fun shown => snapshot_sound hg (.standard g.length)
  obtain ⟨entries, w, p, passes, flips, search, -, matched, hrun, -, -⟩ := solveStandard_eq hg
  rw [hrun] at hsnapshots ⊢
  have htracked := tracked_completed (p := p) hg search
  refine ⟨_, p, rfl, ?_⟩
  exact
    { columns_eq := rfl
      cost_eq := Grid.total_along g p
      balanced := by
        intro before shown after hs q
        obtain ⟨before, rest, hentries, rfl, hrest⟩ := List.map_eq_append_iff.mp hs
        obtain ⟨e, after, rfl, rfl, rfl⟩ := List.map_eq_cons_iff.mp hrest
        rw [hentries] at htracked
        have hbalanced := htracked.balanced q
        rw [List.map_append] at hbalanced
        exact hbalanced
      gain_nonneg := by
        intro shown hshown
        obtain ⟨e, he, rfl⟩ := List.mem_map.mp hshown
        exact htracked.gain_nonneg e he
      sound := hsnapshots
      tight := by
        intro shown hshown hphase
        obtain ⟨e, he, rfl⟩ := List.mem_map.mp hshown
        have hlast : e = w.into .done := by
          simp only [completed, List.cons_append, List.mem_cons, List.mem_append, List.not_mem_nil,
            or_false] at he
          rcases he with rfl | rfl | he | rfl
          · exact absurd (Option.some.inj hphase) (by decide)
          · exact absurd (Option.some.inj hphase) (by decide)
          · exact absurd hphase (search.phase_ne_done e he)
          · rfl
        have hzero : w.matrix.values.along p = 0 := along_completed hg search matched
        rw [hlast]
        exact hzero
      finished :=
        ⟨(Work.reduced g :: Work.selected g :: entries).map Work.snapshot,
          (w.into .done).snapshot, by simp [snapshots, completed], rfl⟩ }

/-! ### Sessions -/

namespace Session

variable {n : Nat} {g : Grid ℚ} {s : Session ℚ} {table : Table ℚ}
variable {seen : List (Snapshot ℚ)}

/-- Optimality: the default session returns a permutation, at the sum of the given costs along it,
and no permutation costs less. -/
theorem solve_optimal [Legible ℚ] (hn : 1 ≤ n) (hg : g.IsSquare n) (ht : table.Holds g) :
    ∃ (a : Assignment ℚ) (p : Equiv.Perm (Fin n)),
      (({} : Session ℚ).solve table).2.outcome = .ok a ∧
      a.columns = Columns.ofPerm p ∧
      a.cost = ∑ i : Fin n, g.entry i (p i) ∧
      ∀ q : Equiv.Perm (Fin n), a.cost ≤ ∑ i : Fin n, g.entry i (q i) := by
  have haccept : table.accept true = .ok g := Table.accept_eq ht hn hg fun _ _ _ _ _ => rfl
  obtain rfl := hg.1
  obtain ⟨a, p, hresult, hcertified⟩ := Run.exists_certified hg
  have hsolve := solve_eq (s := {}) (by simp) haccept hresult
  exact ⟨a, p, hsolve.2, hcertified.columns_eq, hcertified.cost_eq, hcertified.cost_le⟩

theorem solve_optimal_three :
    1 ≤ 3 ∧ Grid.IsSquare 3 ([[4, 1, 3], [2, 0, 5], [3, 2, 2]] : Grid ℚ) ∧
      Table.Holds ([[4, 1, 3], [2, 0, 5], [3, 2, 2]] : Grid ℚ)
        (.rows [[4, 1, 3], [2, 0, 5], [3, 2, 2]]) ∧
      ∃ (a : Assignment ℚ) (p : Equiv.Perm (Fin 3)),
        (({} : Session ℚ).solve (.rows [[4, 1, 3], [2, 0, 5], [3, 2, 2]])).2.outcome = .ok a ∧
        a.columns = Columns.ofPerm p ∧
        a.cost = ∑ i : Fin 3, Grid.entry [[4, 1, 3], [2, 0, 5], [3, 2, 2]] i (p i) ∧
        ∀ q : Equiv.Perm (Fin 3),
          a.cost ≤ ∑ i : Fin 3, Grid.entry [[4, 1, 3], [2, 0, 5], [3, 2, 2]] i (q i) :=
  ⟨by decide, by decide, .rows, solve_optimal (by decide) (by decide) .rows⟩

/-- The running lower bound: at every snapshot from the selection on, bound and values make up the
given cost of every permutation. So the bound never exceeds the least cost, it never falls, and at
the end it is the cost returned, where exactly the optimal permutations pick nothing but zeros. -/
theorem recorded_bound [Legible ℚ] (hn : 1 ≤ n) (hg : g.IsSquare n) (ht : table.Holds g)
    (ho : s.observers = [.recorder seen]) (hc : s.ceiling = .null) :
    ∃ (a : Assignment ℚ) (snapshots : List (Snapshot ℚ)),
      (s.solve table).2.outcome = .ok a ∧
      (s.solve table).1.observers = [.recorder snapshots] ∧
      (∃ before shown, snapshots = before ++ [shown] ∧ shown.phase = some .done) ∧
      (∀ before shown after, snapshots = before ++ shown :: after →
        shown.phase ≠ some .reduce →
        (∀ p : Equiv.Perm (Fin n), g.along p =
          Snapshot.bound a.offset (before ++ [shown]) + shown.values.along p) ∧
        (∀ p : Equiv.Perm (Fin n), Snapshot.bound a.offset (before ++ [shown]) ≤ g.along p) ∧
        (shown.phase = some .done → Snapshot.bound a.offset (before ++ [shown]) = a.cost ∧
          ∀ p : Equiv.Perm (Fin n), (∀ q : Equiv.Perm (Fin n), g.along p ≤ g.along q) ↔
            ∀ i : Fin n, shown.values.entry i (p i) = 0)) ∧
      ∀ before middle after, snapshots = before ++ middle ++ after →
        Snapshot.bound a.offset before ≤ Snapshot.bound a.offset (before ++ middle) := by
  have haccept : table.accept s.finite = .ok g := Table.accept_eq ht hn hg fun _ _ _ _ _ => rfl
  obtain rfl := hg.1
  obtain ⟨a, p, hresult, hcertified⟩ := Run.exists_certified hg
  have hquiet : ∀ o ∈ s.observers, o.IsQuiet := by simp [ho, Observer.IsQuiet]
  have hceiling : Run.solve (.ofValue g.length s.ceiling) g = Run.solveStandard g := by
    rw [hc]
    rfl
  obtain ⟨hobservers, houtcome⟩ := solve_eq hquiet haccept (hceiling ▸ hresult)
  rw [ho, hceiling] at hobservers
  refine ⟨a, (Run.solveStandard g).snapshots, houtcome, ?_, hcertified.finished, ?_, ?_⟩
  · simpa [Observer.fresh, Observer.seeing] using hobservers
  · intro before shown after hs hphase
    exact ⟨hcertified.balanced before shown after hs, hcertified.bound_le hs hphase,
      fun hdone => ⟨hcertified.bound_eq_cost hs hdone, hcertified.optimal_iff hs hdone⟩⟩
  · intro before middle after hs
    exact hcertified.bound_mono hs

theorem recorded_bound_three :
    1 ≤ 3 ∧ Grid.IsSquare 3 ([[1, 2, 3], [2, 4, 6], [3, 6, 9]] : Grid ℚ) ∧
      Table.Holds ([[1, 2, 3], [2, 4, 6], [3, 6, 9]] : Grid ℚ)
        (.rows [[1, 2, 3], [2, 4, 6], [3, 6, 9]]) ∧
      ∃ (a : Assignment ℚ) (snapshots : List (Snapshot ℚ)),
        (({ observers := [.recorder []] } : Session ℚ).solve
          (.rows [[1, 2, 3], [2, 4, 6], [3, 6, 9]])).2.outcome = .ok a ∧
        a.iterations = 3 ∧
        (({ observers := [.recorder []] } : Session ℚ).solve
          (.rows [[1, 2, 3], [2, 4, 6], [3, 6, 9]])).1.observers = [.recorder snapshots] ∧
        (∃ before shown, snapshots = before ++ [shown] ∧ shown.phase = some .done) ∧
        ∀ before middle after, snapshots = before ++ middle ++ after →
          Snapshot.bound a.offset before ≤ Snapshot.bound a.offset (before ++ middle) := by
  obtain ⟨a, snapshots, houtcome, hobservers, hfinished, -, hmono⟩ :=
    recorded_bound (n := 3) (g := [[1, 2, 3], [2, 4, 6], [3, 6, 9]])
      (s := { observers := [.recorder []] }) (by decide) (by decide) .rows rfl rfl
  have hrun : (({ observers := [.recorder []] } : Session ℚ).solve
      (.rows [[1, 2, 3], [2, 4, 6], [3, 6, 9]])).2.outcome.toOption.map (·.iterations) =
        some 3 := by cbv
  rw [houtcome] at hrun
  exact ⟨by decide, by decide, .rows, a, snapshots, houtcome, Option.some.inj hrun, hobservers,
    hfinished, hmono⟩

end Session

end OptimalAssignment
