import Mathlib
import OptimalAssignment.Proofs.Cost.Exact
import OptimalAssignment.Proofs.Solver.Conversion
import OptimalAssignment.Proofs.Solver.Session

/-!
Solving the reduced values in place of the given ones. Reduction leaves its own result as it is, so
both runs work on the same values from the first selection on: they enter the same phases with the
same data and return the same columns. Only the given costs differ, by what the one reduction took
away and the other finds nothing of.
-/
namespace OptimalAssignment

open CostMatrix Grid

variable {n : Nat} {g : Grid ℚ}

namespace CostMatrix

theorem reduce_snd_eq_zero (h : g.IsReduced n) : (ofGrid g).reduce.2 = 0 := by
  have hrows : (rowMinima g).sum = 0 := List.sum_eq_zero h.rowMinima_eq_zero
  have hcols : (colMinima (lowerRows g)).sum = 0 := by
    rw [h.lowerRows_eq_self]
    exact List.sum_eq_zero h.colMinima_eq_zero
  have hoffset : (ofGrid g).reduce.2 = (rowMinima g).sum + (colMinima (lowerRows g)).sum :=
    reduce_snd _
  rw [hoffset, hrows, hcols, add_zero]

/-- A second reduction takes nothing away. -/
theorem reduce_reduce (hg : g.IsSquare n) :
    (ofGrid g).reduce.1.reduce = ((ofGrid g).reduce.1, 0) := by
  have hreduced := isReduced_reduce hg
  have hvalues : (ofGrid g).reduce.1.reduce.1 = (ofGrid g).reduce.1 :=
    congrArg (CostMatrix.mk g) hreduced.reduce_values
  have hoffset : (ofGrid g).reduce.1.reduce.2 = 0 := reduce_snd_eq_zero hreduced
  exact Prod.ext hvalues hoffset

end CostMatrix

/-- The reduced values of a table stand in an array of the same size. -/
theorem Table.exists_reduced {table : Table ℚ} (ht : table.Holds g) (hn : 1 ≤ n)
    (hg : g.IsSquare n) :
    ∃ reduced, table.reduced = .ok reduced ∧ reduced.Holds (ofGrid g).reduce.1.values := by
  refine ⟨_, ?_, .array⟩
  rw [Table.reduced, Table.accept_eq ht hn hg fun _ _ _ _ _ => rfl]
  rfl

theorem Snapshot.map_id : Snapshot.map (id : ℚ → ℚ) = id := by
  funext s
  simp [Snapshot.map, Grid.map]

/-- The run on the reduced values is the run on the grid, told of other given costs. -/
theorem Run.solveStandard_reduced (hg : g.IsSquare g.length) {r : Grid ℚ}
    (hr : (ofGrid g).reduce.1.values = r) :
    ∃ (a : Assignment ℚ) (p : Equiv.Perm (Fin g.length)),
      (solveStandard g).result = .ok a ∧ a.cost = g.along p ∧ a.offset = (ofGrid g).reduce.2 ∧
      (solveStandard r).result = .ok { a with cost := r.along p, offset := 0 } ∧
      (solveStandard r).snapshots = (solveStandard g).snapshots := by
  have hreduced : r.IsReduced g.length := hr ▸ isReduced_reduce hg
  have hlength : r.length = g.length := hreduced.square.1
  have hmap : (ofGrid r).reduce.1.values = (ofGrid g).reduce.1.values.map id := by
    rw [hreduced.reduce_values, hr]
    simp [Grid.map]
  obtain ⟨entries, w, p, passes, flips, -, -, hrun, hrun'⟩ :=
    solveStandard_onto .refl hlength hmap hg (hlength.symm ▸ hreduced.square)
      fun _ _ _ _ _ _ _ _ => .refl _
  refine ⟨_, p, congrArg Run.result hrun, total_along g p, rfl, ?_, ?_⟩
  · rw [hrun']
    simp only [completed, total_along, along_permCongr, Columns.ofPerm_permCongr,
      reduce_snd_eq_zero hreduced]
  · rw [hrun, hrun', snapshots_onto .refl hlength hmap p, Snapshot.map_id, List.map_id]

namespace Session

variable {s : Session ℚ} {table : Table ℚ}

/-- Reduction is a normal form, and solving commutes with it: a session that is handed the reduced
table shows its observers what it shows them of the table itself, and returns the same columns after
as many passes and paths, with no offset and with the cost less the offset. -/
theorem solve_reduced [Legible ℚ] (hn : 1 ≤ n) (hg : g.IsSquare n) (ht : table.Holds g)
    (ho : ∀ o ∈ s.observers, o.IsChronicler) (hc : s.ceiling = .null) :
    ∃ (m : CostMatrix ℚ) (reduced : Table ℚ) (a a' : Assignment ℚ),
      (ofGrid g).reduce = (m, a.offset) ∧ m.values.IsReduced n ∧ m.reduce = (m, 0) ∧
      table.reduced = .ok reduced ∧ reduced.Holds m.values ∧
      (s.solve table).2.outcome = .ok a ∧ (s.solve reduced).2.outcome = .ok a' ∧
      (s.solve reduced).1.observers = (s.solve table).1.observers ∧
      a'.columns = a.columns ∧ a'.iterations = a.iterations ∧
      a'.augmentations = a.augmentations ∧
      a'.offset = 0 ∧ a'.cost = a.cost - a.offset := by
  have hreduced := isReduced_reduce hg
  obtain ⟨reduced, htable, ht'⟩ := Table.exists_reduced ht hn hg
  have haccept : table.accept s.finite = .ok g := Table.accept_eq ht hn hg fun _ _ _ _ _ => rfl
  have haccept' : reduced.accept s.finite = .ok (ofGrid g).reduce.1.values :=
    Table.accept_eq ht' hn hreduced.square fun _ _ _ _ _ => rfl
  obtain ⟨hsession, houtcome⟩ := solve_of_chroniclers ho haccept (solve_of_null hc g)
  obtain ⟨hsession', houtcome'⟩ := solve_of_chroniclers ho haccept' (solve_of_null hc _)
  have hsquare : g.IsSquare g.length := hg.1.symm ▸ hg
  obtain ⟨a, p, hresult, hcost, hoffset, hresult', hsnapshots⟩ :=
    Run.solveStandard_reduced hsquare rfl
  refine ⟨_, reduced, a, { a with cost := (ofGrid g).reduce.1.values.along p, offset := 0 },
    Prod.ext rfl hoffset.symm, hreduced, reduce_reduce hg, htable, ht', ?_, ?_, ?_, rfl, rfl, rfl,
    rfl, ?_⟩
  · rw [houtcome, Run.outcome, hresult]
  · rw [houtcome', Run.outcome, hresult']
  · rw [hsession, hsession', hsnapshots]
  · rw [hcost, hoffset, along_reduce p hsquare, add_sub_cancel_left]

theorem solve_reduced_three :
    1 ≤ 3 ∧ Grid.IsSquare 3 ([[4, 1, 3], [2, 0, 5], [3, 2, 2]] : Grid ℚ) ∧
      Table.Holds ([[4, 1, 3], [2, 0, 5], [3, 2, 2]] : Grid ℚ)
        (.rows [[4, 1, 3], [2, 0, 5], [3, 2, 2]]) ∧
      (∀ o ∈ [(.recorder [] : Observer ℚ)], o.IsChronicler) ∧
      ∃ (reduced : Table ℚ) (a a' : Assignment ℚ),
        Table.reduced (.rows [[4, 1, 3], [2, 0, 5], [3, 2, 2]]) = .ok reduced ∧
        (({ observers := [.recorder []] } : Session ℚ).solve
          (.rows [[4, 1, 3], [2, 0, 5], [3, 2, 2]])).2.outcome = .ok a ∧
        (({ observers := [.recorder []] } : Session ℚ).solve reduced).2.outcome = .ok a' ∧
        a'.columns = a.columns ∧ a'.offset = 0 ∧ a'.cost = a.cost - 4 := by
  have ho : ∀ o ∈ [(.recorder [] : Observer ℚ)], o.IsChronicler := by
    simp [Observer.IsChronicler]
  have hfour : (ofGrid ([[4, 1, 3], [2, 0, 5], [3, 2, 2]] : Grid ℚ)).reduce.2 = 4 := by
    decide +kernel
  obtain ⟨m, reduced, a, a', hreduce, -, -, htable, -, houtcome, houtcome', -, hcolumns, -, -,
    hnone, hcost⟩ := solve_reduced (s := { observers := [.recorder []] })
      (g := [[4, 1, 3], [2, 0, 5], [3, 2, 2]]) (by decide : 1 ≤ 3) (by decide) .rows ho rfl
  have hoffset : a.offset = 4 := (congrArg Prod.snd hreduce).symm.trans hfour
  rw [hoffset] at hcost
  exact ⟨by decide, by decide, .rows, ho, reduced, a, a', htable, houtcome, houtcome', hcolumns,
    hnone, hcost⟩

end Session

end OptimalAssignment
