import Mathlib
import OptimalAssignment.Proofs.Cost.Exact
import OptimalAssignment.Proofs.Solver.Course
import OptimalAssignment.Proofs.Solver.Session

/-!
Every table is solved. The standard ceiling lies above the number of passes that any run takes, so
every run ends with a permutation. Nothing but the laws of a lawful scalar is used, so this holds of
rounded costs as well.
-/
namespace OptimalAssignment

variable {α : Type} [Scalar α] [LinearOrder α] [LawfulScalar α]
variable {n : Nat} {g : Grid α} {w : Work α} {entries : List (Work α)} {passes flips : Nat}

namespace Work.Passes

variable (hp : (selected g).next.Passes entries w passes flips) (hg : g.IsSquare g.length)
include hp hg

/-- Every pass after the selection is paid for by selected zeros and covered rows. -/
theorem count_le :
    w.matching.numSelected = (Run.initial g).matching.numSelected + flips ∧
      2 * passes + (Run.initial g).matching.numSelected *
          ((Run.initial g).matching.numSelected + 1) ≤
        2 * w.coverage.numCoveredRows + w.matching.numSelected * (w.matching.numSelected + 1) := by
  have hrows : (selected g).next.coverage.numCoveredRows = 0 :=
    Coverage.numCoveredRows_renewed _ _
  have hprogress := hp.progress (selected_ready hg)
  rw [hrows, Nat.add_zero] at hprogress
  exact hprogress

/-- A search that has used up the standard budget is complete. -/
theorem isOptimal_of_budget (hb : passes = (Ceiling.standard g.length).budget) :
    w.coverage.isOptimal = true := by
  have hready : w.IsReady g.length := hp.ready (selected_ready hg)
  by_contra ho
  obtain ⟨col, hcol, -⟩ := hready.deficient (Bool.eq_false_iff.mpr ho)
  have hcovered := hready.numCovered_eq
  have hselected := hready.numSelected_le
  have hsquare : w.matching.numSelected * (w.matching.numSelected + 1) ≤
      g.length * (g.length + 1) := Nat.mul_le_mul hselected (Nat.succ_le_succ hselected)
  have hlarge : g.length * 2 ≤ g.length * (g.length + 1) := Nat.mul_le_mul_left _ (by omega)
  have hbudget : passes = 2 * (g.length * (g.length + 1)) := by rw [hb, ← Nat.mul_assoc]; rfl
  have hcount := (hp.count_le hg).2
  omega

end Work.Passes

/-- Under the standard ceiling every run is complete, within the bounds that the initial selection
sets. -/
theorem Run.solveStandard_eq (hg : g.IsSquare g.length) :
    ∃ entries w p passes flips, (Work.selected g).next.Passes entries w passes flips ∧
      w.coverage.isOptimal = true ∧
      (∀ i : Fin g.length, w.matching.col? i = some (p i : Nat)) ∧
      solveStandard g = completed g entries w p passes flips ∧
      (initial g).matching.numSelected + flips = g.length ∧
      passes ≤ (g.length * (g.length + 1) - (initial g).matching.numSelected *
        ((initial g).matching.numSelected + 1)) / 2 := by
  have hcourse := solve_course hg (.standard g.length)
  rw [solveStandard]
  generalize solve (.standard g.length) g = run at hcourse
  cases hcourse with
  | complete search optimal matched =>
    obtain ⟨hnum, hcount⟩ := search.count_le hg
    obtain ⟨hrows, hall⟩ := (search.ready (Work.selected_ready hg)).numSelected_eq optimal
    rw [hrows, hall] at hcount
    exact ⟨_, _, _, _, _, search, optimal, matched, rfl, by omega, by omega⟩
  | spent search incomplete =>
    rw [search.isOptimal_of_budget hg rfl] at incomplete
    contradiction

variable [Legible α] {s : Session α} {table : Table α}

/-- Guaranteed completion: a session under the standard ceiling solves every table that holds a
square grid with at least one row. It returns a permutation and its inverse, flips one path for
every zero that the initial selection leaves out, and stays below the ceiling. -/
theorem Session.solve_completes (hn : 1 ≤ n) (hg : g.IsSquare n) (ht : table.Holds g)
    (ho : ∀ o ∈ s.observers, o.IsQuiet) (hc : s.ceiling = .null)
    (hf : s.finite = true → ∀ row ∈ g, ∀ x ∈ row, Scalar.isFinite x = true) :
    ∃ (a : Assignment α) (p : Equiv.Perm (Fin n)),
      (s.solve table).2.outcome = .ok a ∧
      a.columns = Columns.ofPerm p ∧
      Columns.inverse a.columns = .ok (Columns.ofPerm p.symm) ∧
      (Run.initial g).matching.numSelected ≤ n ∧
      a.augmentations = n - (Run.initial g).matching.numSelected ∧
      a.iterations ≤ (n * (n + 1) - (Run.initial g).matching.numSelected *
        ((Run.initial g).matching.numSelected + 1)) / 2 ∧
      (n * (n + 1) - (Run.initial g).matching.numSelected *
        ((Run.initial g).matching.numSelected + 1)) / 2 < (Ceiling.standard n).budget := by
  have haccept := Table.accept_eq ht hn hg hf
  obtain rfl := hg.1
  obtain ⟨entries, w, p, passes, flips, -, -, -, hrun, hflips, hpasses⟩ := Run.solveStandard_eq hg
  have hresult : (Run.solve (.ofValue g.length s.ceiling) g).result =
      (Run.completed g entries w p passes flips).result := by
    rw [hc, ← hrun]
    rfl
  have hselected : (Run.initial g).matching.numSelected ≤ g.length := by omega
  have haugmented : flips = g.length - (Run.initial g).matching.numSelected := by omega
  refine ⟨_, p, (solve_eq ho haccept hresult).2, rfl, Columns.inverse_ofPerm p, hselected,
    haugmented, hpasses, ?_⟩
  have hpos : 0 < g.length * (g.length + 1) := Nat.mul_pos hn (Nat.succ_pos _)
  have hbudget : (Ceiling.standard g.length).budget = 2 * (g.length * (g.length + 1)) := by
    rw [← Nat.mul_assoc]
    rfl
  omega

theorem Session.solve_completes_three :
    1 ≤ 3 ∧ Grid.IsSquare 3 ([[1, 2, 3], [2, 4, 6], [3, 6, 9]] : Grid ℚ) ∧
      Table.Holds ([[1, 2, 3], [2, 4, 6], [3, 6, 9]] : Grid ℚ)
        (.rows [[1, 2, 3], [2, 4, 6], [3, 6, 9]]) ∧
      (∀ row ∈ ([[1, 2, 3], [2, 4, 6], [3, 6, 9]] : Grid ℚ), ∀ x ∈ row,
        Scalar.isFinite x = true) ∧
      ∃ (a : Assignment ℚ) (p : Equiv.Perm (Fin 3)),
        (({} : Session ℚ).solve (.rows [[1, 2, 3], [2, 4, 6], [3, 6, 9]])).2.outcome = .ok a ∧
        a.columns = Columns.ofPerm p ∧ a.iterations = 3 ∧ a.augmentations = 1 := by
  have hfinite : ∀ row ∈ ([[1, 2, 3], [2, 4, 6], [3, 6, 9]] : Grid ℚ), ∀ x ∈ row,
      Scalar.isFinite x = true := fun _ _ _ _ => rfl
  obtain ⟨a, p, houtcome, hcolumns, -⟩ :=
    solve_completes (g := [[1, 2, 3], [2, 4, 6], [3, 6, 9]]) (s := ({} : Session ℚ))
      (by decide : 1 ≤ 3) (by decide) .rows (by simp) rfl fun _ => hfinite
  have hrun : (({} : Session ℚ).solve (.rows [[1, 2, 3], [2, 4, 6], [3, 6, 9]])).2.outcome.toOption.map
      (fun a => (a.iterations, a.augmentations)) = some (3, 1) := by cbv
  rw [houtcome] at hrun
  obtain ⟨hiterations, haugmentations⟩ := Prod.mk.inj (Option.some.inj hrun)
  exact ⟨by decide, by decide, .rows, hfinite, a, p, houtcome, hcolumns, hiterations,
    haugmentations⟩

end OptimalAssignment
