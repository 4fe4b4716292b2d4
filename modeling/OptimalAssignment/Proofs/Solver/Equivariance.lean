import Mathlib
import OptimalAssignment.Proofs.Solver.Conversion

/-!
Grids that differ by a factor and by what is added to each row. Lowering the rows takes away what
was added, so the reduced values differ by the factor alone, which every comparison respects. The
two runs then go in step: they enter the same phases with the same lines and cells, every value of
the one is the multiple of that of the other, and both return the same columns.
-/
namespace OptimalAssignment

open CostMatrix Scalar

variable {lam : ℚ}

theorem isConversion_mul (hlam : 0 < lam) : IsConversion fun x : ℚ => lam * x where
  map_zero := mul_zero lam
  map_lower x y := by
    rw [lower_eq, mul_min_of_nonneg x y hlam.le]
  isZero_map x := by
    rw [Bool.eq_iff_iff, LawfulScalar.isZero_iff, LawfulScalar.isZero_iff,
      mul_eq_zero_iff_left hlam.ne']

theorem respects_mul (lam least : ℚ) : Respects (fun x : ℚ => lam * x) least where
  map_sub x := mul_sub lam x least
  map_add x := mul_add lam x least

namespace Grid

theorem entry_map_mul (g : Grid ℚ) (i j : Nat) :
    (g.map fun x => lam * x).entry i j = lam * g.entry i j := by
  rw [entry, cell?_map, entry]
  cases g.cell? i j with
  | none => exact (mul_zero lam).symm
  | some x => rfl

theorem along_map_mul {n : Nat} (g : Grid ℚ) (p : Equiv.Perm (Fin n)) :
    (g.map fun x => lam * x).along p = lam * g.along p := by
  rw [along, along, Finset.mul_sum]
  exact Finset.sum_congr rfl fun i _ => entry_map_mul g i (p i)

end Grid

section Rows

variable {n : Nat} {g g' : Grid ℚ} {r : Fin n → ℚ}
variable (hg : g.IsSquare n) (hg' : g'.IsSquare n)
  (hcells : ∀ i j : Fin n, g'.entry i j = lam * g.entry i j + r i)
include hg hg' hcells

theorem row_eq (i : Fin n) : ∃ row, g[(i : Nat)]? = some row ∧ row.length = n ∧
    g'[(i : Nat)]? = some (row.map fun x => lam * x + r i) := by
  obtain ⟨row, hrow, hlength⟩ := hg.exists_row i.isLt
  obtain ⟨row', hrow', hlength'⟩ := hg'.exists_row i.isLt
  refine ⟨row, hrow, hlength, ?_⟩
  rw [hrow', Option.some.injEq]
  refine List.ext_getElem (by simp [hlength, hlength']) fun j hj _ => ?_
  have hcell := hcells i ⟨j, by omega⟩
  simp [Grid.entry, Grid.cell?, hrow, hrow', hlength, hlength', show j < n by omega] at hcell
  simpa using hcell

omit hg hg' in
theorem along_eq (p : Equiv.Perm (Fin n)) : g'.along p = lam * g.along p + ∑ i, r i := by
  rw [Grid.along, Grid.along, Finset.mul_sum, ← Finset.sum_add_distrib]
  exact Finset.sum_congr rfl fun i _ => hcells i (p i)

theorem lowerRows_eq (hlam : 0 < lam) : lowerRows g' = (lowerRows g).map fun x => lam * x := by
  refine List.ext_getElem? fun i => ?_
  by_cases hi : i < n
  · obtain ⟨row, hrow, hlength, hrow'⟩ := row_eq hg hg' hcells ⟨i, hi⟩
    have hlower : ∀ x y : ℚ, lam * lower x y + r ⟨i, hi⟩ =
        lower (lam * x + r ⟨i, hi⟩) (lam * y + r ⟨i, hi⟩) := by
      intro x y
      rw [lower_eq, mul_min_of_nonneg x y hlam.le, min_add_add_right]
    -- what was added to the row was added to its least value as well
    have hleast : least (row.map fun x => lam * x + r ⟨i, hi⟩) = lam * least row + r ⟨i, hi⟩ :=
      least_map (f := fun x => lam * x + r ⟨i, hi⟩) hlower (List.ne_nil_of_length_pos (by omega))
    simp only [lowerRows, Grid.map, List.getElem?_map, hrow, hrow', Option.map_some, List.map_map,
      hleast, Function.comp_def]
    congr 2
    funext x
    ring
  · rw [List.getElem?_eq_none, List.getElem?_eq_none] <;>
      simp [lowerRows, Grid.map, hg.1, hg'.1] <;> omega

theorem reduce_eq (hlam : 0 < lam) : (ofGrid g').reduce.1.values =
    (ofGrid g).reduce.1.values.map fun x => lam * x := by
  have hvalues : lowerCols (lowerRows g') = (lowerCols (lowerRows g)).map fun x => lam * x := by
    rw [lowerRows_eq hg hg' hcells hlam]
    exact lowerCols_map (isConversion_mul hlam) fun x _ => respects_mul lam x
  exact hvalues

theorem offset_eq (hlam : 0 < lam) :
    (ofGrid g').reduce.2 = lam * (ofGrid g).reduce.2 + ∑ i, r i := by
  have hlost := along_reduce 1 hg
  have hlost' := along_reduce 1 hg'
  rw [along_eq hcells, reduce_eq hg hg' hcells hlam, Grid.along_map_mul] at hlost'
  linear_combination lam * hlost - hlost'

end Rows

namespace Session

variable {s : Session ℚ} {table table' : Table ℚ} {g g' : Grid ℚ} {seen : List (Snapshot ℚ)}
  {n : Nat} {r : Fin n → ℚ}

/-- A factor on all costs and something added to each row change nothing but the values: both runs
record the same phases, lines and cells, snapshot by snapshot, and return the same columns. -/
theorem solve_equivariant [Legible ℚ] (hn : 1 ≤ n) (hg : g.IsSquare n) (hg' : g'.IsSquare n)
    (hlam : 0 < lam) (hcells : ∀ i j : Fin n, g'.entry i j = lam * g.entry i j + r i)
    (ht : table.Holds g) (ht' : table'.Holds g')
    (ho : s.observers = [.recorder seen]) (hc : s.ceiling = .null) :
    ∃ (a a' : Assignment ℚ) (snapshots : List (Snapshot ℚ)),
      (s.solve table).2.outcome = .ok a ∧ (s.solve table').2.outcome = .ok a' ∧
      (s.solve table).1.observers = [.recorder snapshots] ∧
      (s.solve table').1.observers =
        [.recorder (snapshots.map (Snapshot.map fun x => lam * x))] ∧
      a'.columns = a.columns ∧ a'.iterations = a.iterations ∧
      a'.augmentations = a.augmentations ∧
      a'.cost = lam * a.cost + ∑ i, r i ∧ a'.offset = lam * a.offset + ∑ i, r i := by
  have haccept : table.accept s.finite = .ok g := Table.accept_eq ht hn hg fun _ _ _ _ _ => rfl
  have haccept' : table'.accept s.finite = .ok g' :=
    Table.accept_eq ht' hn hg' fun _ _ _ _ _ => rfl
  obtain rfl := hg.1
  have hlength : g'.length = g.length := hg'.1
  have hreduce := reduce_eq hg hg' hcells hlam
  obtain ⟨entries, w, p, passes, flips, -, -, hrun, hrun'⟩ :=
    Run.solveStandard_onto (isConversion_mul hlam) hlength hreduce hg (hlength ▸ hg')
      fun _ _ _ _ _ _ _ _ => respects_mul lam _
  obtain ⟨hobservers, houtcome⟩ := solve_recorded ho hc haccept hrun
  obtain ⟨hobservers', houtcome'⟩ := solve_recorded ho hc haccept' hrun'
  rw [Run.snapshots_onto (isConversion_mul hlam) hlength hreduce p] at hobservers'
  refine ⟨_, _, _, houtcome, houtcome', hobservers, hobservers', ?_, rfl, rfl, ?_, ?_⟩
  · exact Columns.ofPerm_permCongr hlength.symm p
  · have hcost : LaneSum.total (List.ofFn fun i => g'.entry i
        ((finCongr hlength.symm).permCongr p i)) = lam * g.along p + ∑ i, r i := by
      rw [Grid.total_along, Grid.along_permCongr, along_eq hcells]
    rw [← Grid.total_along] at hcost
    exact hcost
  · exact offset_eq hg hg' hcells hlam

theorem solve_equivariant_three :
    1 ≤ 3 ∧ Grid.IsSquare 3 ([[1, 2, 3], [2, 4, 6], [3, 6, 9]] : Grid ℚ) ∧
      Grid.IsSquare 3 ([[8, 11, 14], [4, 10, 16], [9, 18, 27]] : Grid ℚ) ∧ (0 : ℚ) < 3 ∧
      (∀ i j : Fin 3, Grid.entry [[8, 11, 14], [4, 10, 16], [9, 18, 27]] i j =
        3 * Grid.entry [[1, 2, 3], [2, 4, 6], [3, 6, 9]] i j + (![5, -2, 0] : Fin 3 → ℚ) i) ∧
      Table.Holds ([[1, 2, 3], [2, 4, 6], [3, 6, 9]] : Grid ℚ)
        (.rows [[1, 2, 3], [2, 4, 6], [3, 6, 9]]) ∧
      Table.Holds ([[8, 11, 14], [4, 10, 16], [9, 18, 27]] : Grid ℚ)
        (.rows [[8, 11, 14], [4, 10, 16], [9, 18, 27]]) ∧
      ∃ a a' : Assignment ℚ,
        (({ observers := [.recorder []] } : Session ℚ).solve
          (.rows [[1, 2, 3], [2, 4, 6], [3, 6, 9]])).2.outcome = .ok a ∧
        (({ observers := [.recorder []] } : Session ℚ).solve
          (.rows [[8, 11, 14], [4, 10, 16], [9, 18, 27]])).2.outcome = .ok a' ∧
        a.iterations = 3 ∧ a'.iterations = 3 ∧
        a'.columns = a.columns ∧ a'.cost = 3 * a.cost + 3 := by
  have hcells : ∀ i j : Fin 3, Grid.entry [[8, 11, 14], [4, 10, 16], [9, 18, 27]] i j =
      3 * Grid.entry [[1, 2, 3], [2, 4, 6], [3, 6, 9]] i j + (![5, -2, 0] : Fin 3 → ℚ) i := by
    decide +kernel
  obtain ⟨a, a', -, houtcome, houtcome', -, -, hcolumns, hiterations, -, hcost, -⟩ :=
    solve_equivariant (s := { observers := [.recorder []] }) (by decide) (by decide) (by decide)
      (by decide) hcells .rows .rows rfl rfl
  have hadded : ∑ i, (![5, -2, 0] : Fin 3 → ℚ) i = 3 := by decide +kernel
  rw [hadded] at hcost
  have hrun : (({ observers := [.recorder []] } : Session ℚ).solve
      (.rows [[1, 2, 3], [2, 4, 6], [3, 6, 9]])).2.outcome.toOption.map (·.iterations) =
        some 3 := by cbv
  rw [houtcome] at hrun
  have hpasses : a.iterations = 3 := Option.some.inj hrun
  exact ⟨by decide, by decide, by decide, by decide, hcells, .rows, .rows, a, a', houtcome,
    houtcome', hpasses, hiterations.trans hpasses, hcolumns, hcost⟩

end Session

end OptimalAssignment
