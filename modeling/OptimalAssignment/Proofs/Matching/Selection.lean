import OptimalAssignment.Proofs.Matching.Greedy

/-!
What the greedy selection leaves behind, whatever the matching held before. A row without zeros
stops it, the lowest such row, before anything is selected. Otherwise it ends in independent zeros
to which no zero can be added; every other choice of independent zeros has at most twice as many,
since each of its zeros shares a row or a column with a selected one.
-/
namespace OptimalAssignment

/-- Cells with zeros, no two of them in one row or in one column. -/
structure Grid.Independent (mask : Grid Bool) (zeros : Finset (Nat × Nat)) : Prop where
  zero : ∀ cell ∈ zeros, mask.cell? cell.1 cell.2 = some true
  rows : Set.InjOn Prod.fst (zeros : Set (Nat × Nat))
  cols : Set.InjOn Prod.snd (zeros : Set (Nat × Nat))

/-! ### What was there before -/

/-- A matching with the size and the prepared zeros of another one. -/
def Matching.reframed {P : Type} (outer m : Matching P) : Matching P :=
  { m with size := outer.size, markOfRow := outer.markOfRow }

theorem Matching.select_reframed {P : Type} [Position P] (outer m : Matching P) (row col : P) :
    (outer.reframed m).select row col = (m.select row col).map outer.reframed := by
  have htaken : (outer.reframed m).isTaken row col = m.isTaken row col := rfl
  simp only [select, htaken, bind, Except.bind]
  rcases m.isTaken row col with fault | taken
  · rfl
  cases taken with
  | true => rfl
  | false =>
    simp only [Bool.false_eq_true, ↓reduceIte, pure, Except.pure, reframed]
    rcases writeAt m.colOfRow row (Position.slot col) with fault | cols
    · rfl
    rcases writeAt m.rowOfCol col (Position.slot row) with fault | rows <;> rfl

namespace Greedy

open Matching

variable {n row col : Nat} {mask : Grid Bool} {m : Matching Nat}

/-- Serving rows neither looks at the size and the prepared zeros nor changes them. -/
theorem serve_reframed (outer : Matching Nat) (fuel : Nat) (counts : Counts) (m : Matching Nat) :
    serve mask fuel counts (outer.reframed m) =
      { serve mask fuel counts m with
        matching := outer.reframed (serve mask fuel counts m).matching } := by
  induction fuel generalizing counts m with
  | zero => rfl
  | succ fuel ih =>
    have hrows : (outer.reframed m).rowOfCol = m.rowOfCol := rfl
    rw [serve, serve]
    cases leastCount? counts with
    | none => rfl
    | some entry =>
      obtain ⟨row, count⟩ := entry
      simp only [hrows, select_reframed]
      split_ifs
      · rfl
      rcases firstFree (mask[row]?.getD []) m.rowOfCol with fault | _ | col
      · rfl
      · rfl
      · simp only
        rcases m.select (Position.ofNat row) (Position.ofNat col) with fault | m'
        · rfl
        · simp only [Except.map, ih]

theorem run_reframed (n : Nat) (mask : Grid Bool) (m : Matching Nat) :
    run mask m = { run mask (.empty Nat n) with
      matching := m.reframed (run mask (.empty Nat n)).matching } := by
  rw [run, run, ← serve_reframed]
  rfl

/-! ### Nothing can be added -/

/-- Once no count is left, every zero shares its row or its column with a selected one. -/
theorem Serving.maximal (hmask : mask.IsSquare n) (h : Serving n mask m [])
    (hcell : mask.cell? row col = some true) : (m.col? row).isSome ∨ (m.row? col).isSome := by
  by_contra hfree
  obtain ⟨hrow, hcol⟩ := not_or.mp hfree
  have hopen : (freeZeros n mask m row).Nonempty :=
    ⟨col, (mem_freeZeros_iff hmask).mpr ⟨hcell, Option.not_isSome_iff_eq_none.mp hcol⟩⟩
  have hcounted := h.counted row (hmask.lt_of_cell? hcell).1
    (Option.not_isSome_iff_eq_none.mp hrow) hopen
  contradiction

theorem Serving.independent {counts : Counts} (h : Serving n mask m counts) :
    mask.Independent m.selectedPairs.toFinset := by
  have hmem : ∀ cell : Nat × Nat, cell ∈ m.selectedPairs.toFinset ↔ m.col? cell.1 = some cell.2 :=
    fun cell => List.mem_toFinset.trans mem_selectedPairs_iff
  refine ⟨fun cell hc => h.zero _ _ ((hmem cell).mp hc), ?_, ?_⟩
  · intro cell hc cell' hc' he
    have hcol := (hmem cell).mp hc
    rw [he, (hmem cell').mp hc'] at hcol
    exact Prod.ext he (Option.some.inj hcol).symm
  · intro cell hc cell' hc' he
    have hcol := (hmem cell).mp hc
    rw [he] at hcol
    exact Prod.ext (h.paired.col_inj hcol ((hmem cell').mp hc')) he

/-- Each independent zero is paid for by the row or by the column of a selected one. -/
theorem Serving.card_le (hmask : mask.IsSquare n) (h : Serving n mask m [])
    {zeros : Finset (Nat × Nat)} (hzeros : mask.Independent zeros) :
    zeros.card ≤ 2 * m.numSelected := by
  have hcover : zeros ⊆ {cell ∈ zeros | cell.1 ∈ m.matchedRows n} ∪
      {cell ∈ zeros | cell.2 ∈ m.matchedCols n} := by
    intro cell hc
    rw [Finset.mem_union, Finset.mem_filter, Finset.mem_filter, h.paired.mem_matchedRows_iff,
      h.paired.mem_matchedCols_iff]
    exact (h.maximal hmask (hzeros.zero cell hc)).imp (⟨hc, ·⟩) (⟨hc, ·⟩)
  have hrows : Finset.card {cell ∈ zeros | cell.1 ∈ m.matchedRows n} ≤ m.numSelected := by
    rw [← h.paired.card_matchedRows]
    exact Finset.card_le_card_of_injOn Prod.fst (fun cell hc => (Finset.mem_filter.mp hc).2)
      (hzeros.rows.mono (Finset.coe_subset.mpr (Finset.filter_subset _ _)))
  have hcols : Finset.card {cell ∈ zeros | cell.2 ∈ m.matchedCols n} ≤ m.numSelected := by
    rw [← h.paired.card_matchedCols]
    exact Finset.card_le_card_of_injOn Prod.snd (fun cell hc => (Finset.mem_filter.mp hc).2)
      (hzeros.cols.mono (Finset.coe_subset.mpr (Finset.filter_subset _ _)))
  calc zeros.card
      ≤ Finset.card ({cell ∈ zeros | cell.1 ∈ m.matchedRows n} ∪
          {cell ∈ zeros | cell.2 ∈ m.matchedCols n}) := Finset.card_le_card hcover
    _ ≤ Finset.card {cell ∈ zeros | cell.1 ∈ m.matchedRows n} +
          Finset.card {cell ∈ zeros | cell.2 ∈ m.matchedCols n} := Finset.card_union_le _ _
    _ ≤ 2 * m.numSelected := by omega

/-- The greedy selection stops exactly on masks with a row without zeros: it names the lowest of
them, with nothing selected. Otherwise the selected zeros are independent, no zero can be added to
them, and no independent zeros are more than twice as many. The prepared zeros always stay. -/
theorem run_maximal (hmask : mask.IsSquare n) (m : Matching Nat) :
    ((run mask m).fault ≠ none ↔ ∃ row < n, ∀ col < n, mask.cell? row col ≠ some true) ∧
      (run mask m).matching.markOfRow = m.markOfRow ∧
      (∀ row count, (run mask m).fault ≠ some (.rowMiscounted row count)) ∧
      (∀ fault, (run mask m).fault = some fault → fault.isBreach = true ∧
        ∃ row < n, fault = .rowExhausted row ∧ (∀ col < n, mask.cell? row col ≠ some true) ∧
          (∀ other < row, ∃ col < n, mask.cell? other col = some true) ∧
          (run mask m).matching.colOfRow = List.replicate n none ∧
          (run mask m).matching.rowOfCol = List.replicate n none) ∧
      ((run mask m).fault = none →
        (∀ row col, (run mask m).matching.col? row = some col ↔
          (run mask m).matching.row? col = some row) ∧
        mask.Independent (run mask m).matching.selectedPairs.toFinset ∧
        (∀ row col, mask.cell? row col = some true →
          ((run mask m).matching.col? row).isSome ∨ ((run mask m).matching.row? col).isSome) ∧
        ∀ zeros, mask.Independent zeros → zeros.card ≤ 2 * (run mask m).matching.numSelected) := by
  have hinside : ∀ row, (∃ col, mask.cell? row col = some true) ↔
      ∃ col < n, mask.cell? row col = some true := fun row =>
    ⟨fun ⟨col, hcol⟩ => ⟨col, (hmask.lt_of_cell? hcol).2, hcol⟩, fun ⟨col, _, hcol⟩ => ⟨col, hcol⟩⟩
  by_cases hrows : ∀ row < n, ∃ col, mask.cell? row col = some true
  · obtain ⟨hfault, -, hserving⟩ := run_spec hmask (paired_empty n) hrows
    have hmaximal : ∀ row col, mask.cell? row col = some true →
        ((run mask (.empty Nat n)).matching.col? row).isSome ∨
          ((run mask (.empty Nat n)).matching.row? col).isSome :=
      fun _ _ => hserving.maximal hmask
    have hbound : ∀ zeros, mask.Independent zeros →
        zeros.card ≤ 2 * (run mask (.empty Nat n)).matching.numSelected :=
      fun _ => hserving.card_le hmask
    rw [run_reframed n]
    refine ⟨?_, rfl, by simp [hfault], by simp [hfault], fun _ => ?_⟩
    · simp only [hfault, ne_eq, not_true_eq_false, false_iff, not_exists, not_and]
      intro row hrow hnone
      obtain ⟨col, hcn, hcol⟩ := (hinside row).mp (hrows row hrow)
      exact hnone col hcn hcol
    · exact ⟨hserving.paired.inverse, hserving.independent, hmaximal, hbound⟩
  · push Not at hrows
    obtain ⟨row, hrow, hnone⟩ := hrows
    obtain ⟨lowest, hlowest, hempty, hbelow, hrun⟩ := run_exhausted hmask hrow hnone m
    rw [hrun]
    refine ⟨⟨fun _ => ⟨lowest, hlowest, fun col _ => hempty col⟩, fun _ => by simp⟩, rfl, by simp,
      ?_, by simp⟩
    intro fault hfault
    obtain rfl := Option.some.inj hfault
    exact ⟨rfl, lowest, hlowest, rfl, fun col _ => hempty col,
      fun other hother => (hinside other).mp (hbelow other hother), rfl, rfl⟩

theorem run_maximal_three :
    Grid.IsSquare 3 [[true, true, false], [true, false, false], [true, false, false]] ∧
      (run [[true, true, false], [true, false, false], [true, false, false]]
        ⟨5, [some 7], [], [some 4]⟩).matching = ⟨5, [some 1, some 0, none], [some 1, some 0, none],
          [some 4]⟩ ∧
      ∀ zeros, Grid.Independent [[true, true, false], [true, false, false], [true, false, false]]
        zeros → zeros.card ≤ 4 := by
  have hsquare : Grid.IsSquare 3 [[true, true, false], [true, false, false],
    [true, false, false]] := by decide
  obtain ⟨-, -, -, -, hmaximal⟩ := run_maximal hsquare ⟨5, [some 7], [], [some 4]⟩
  exact ⟨hsquare, by decide, (hmaximal (by decide)).2.2.2⟩

/-- The first of two rows without zeros is named, and what was selected before is gone. -/
example : run [[true, true, true], [false, false, false], [false, false, false]]
    ⟨3, [some 0, none, none], [some 0, none, none], [none, some 2, none]⟩ =
      ⟨[], ⟨3, [none, none, none], [none, none, none], [none, some 2, none]⟩,
        some (.rowExhausted 1)⟩ := rfl

end Greedy

end OptimalAssignment
