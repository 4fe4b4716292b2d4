import Mathlib
import OptimalAssignment.Proofs.Cost.Exact
import OptimalAssignment.Proofs.Solver.Course

/-!
What every snapshot shows, from the selection to the end of a run. Values, selected and prepared
zeros and cover flags fit together in each of them, whatever the ceiling is and however the run
ends.
-/
namespace OptimalAssignment

variable {α : Type} [Scalar α]

/-- What a snapshot after the reduction shows. -/
structure Snapshot.Sound [LinearOrder α] (s : Snapshot α) : Prop where
  square : s.values.IsSquare s.size
  length_rows : s.rows.length = s.size
  length_cols : s.cols.length = s.size
  nonneg : ∀ row col x, s.values.cell? row col = some x → 0 ≤ x
  selected_rows : (s.selected.map Prod.fst).Nodup
  selected_cols : (s.selected.map Prod.snd).Nodup
  selected_zero : ∀ row col, (row, col) ∈ s.selected → s.values.cell? row col = some 0
  prepared_zero : ∀ row col, (row, col) ∈ s.prepared → s.values.cell? row col = some 0
  prepared_open : ∀ row col, (row, col) ∈ s.prepared → s.cols[col]? = some false
  /-- Of the two lines of a selected zero exactly one is covered. -/
  one_cover : ∀ row col, (row, col) ∈ s.selected →
    (s.rows[row]? = some true ↔ s.cols[col]? = some false)
  covered_row : ∀ row, s.rows[row]? = some true →
    (∃ col, (row, col) ∈ s.selected) ∧ ∃ col, (row, col) ∈ s.prepared
  covered_col : ∀ col, s.cols[col]? = some true → ∃ row, (row, col) ∈ s.selected
  covered_count : s.rows.count true + s.cols.count true = s.numSelected
  /-- A row with both kinds of zeros is covered, unless it was just found by the search. -/
  both_covered : ∀ row col mark, (row, col) ∈ s.selected → (row, mark) ∈ s.prepared →
    s.rows[row]? = some true ∨ s.phase = some .search ∧
      (CostMatrix.ofGrid s.values).findUncoveredZero ⟨s.size, s.rows, s.cols⟩ =
        .ok (some (row, mark))
  free_zero : ∀ col < s.size, (∀ row, (row, col) ∉ s.selected) →
    ∃ row, s.values.cell? row col = some 0

namespace Work

open Matching CostMatrix

variable [LinearOrder α] {n : Nat} {g : Grid α} {w : Work α}

theorem Sound.snapshot (h : w.Sound n) : w.snapshot.size = n ∧ w.snapshot.Sound := by
  have hsize : w.snapshot.size = n := h.square.1
  refine ⟨hsize, ?_⟩
  have hopen : ∀ col < n, w.snapshot.cols[col]? = some false ↔ ¬ w.coverage.CoversCol col := by
    intro col hc
    have hflag : w.snapshot.cols[col]? = some (decide (w.coverage.CoversCol col)) :=
      h.fits.cols_getElem? hc
    rw [hflag, Option.some.injEq, decide_eq_false_iff_not]
  exact
    { square := by rw [hsize]; exact h.square
      length_rows := by rw [hsize]; exact h.fits.length_rows
      length_cols := by rw [hsize]; exact h.fits.length_cols
      nonneg := h.nonneg
      selected_rows := nodup_fst_filled w.matching.colOfRow
      selected_cols := h.paired.nodup_cols
      selected_zero := fun row col hs => h.selected_zero row col (mem_selectedPairs_iff.mp hs)
      prepared_zero := fun row col hm => h.marked_zero row col (mem_preparedPairs_iff.mp hm)
      prepared_open := by
        intro row col hm
        rw [hopen col (h.mark_lt row col (mem_preparedPairs_iff.mp hm))]
        exact h.marked_open row col (mem_preparedPairs_iff.mp hm)
      one_cover := by
        intro row col hs
        rw [hopen col (h.paired.col_lt (mem_selectedPairs_iff.mp hs))]
        exact h.one_cover row col (mem_selectedPairs_iff.mp hs)
      covered_row := by
        intro row hr
        obtain ⟨col, hs⟩ := Option.isSome_iff_exists.mp (h.row_selected row hr)
        obtain ⟨mark, hm⟩ := Option.isSome_iff_exists.mp (h.marked_of_coversRow hr)
        exact ⟨⟨col, mem_selectedPairs_iff.mpr hs⟩, ⟨mark, mem_preparedPairs_iff.mpr hm⟩⟩
      covered_col := by
        intro col hc
        obtain ⟨row, hr⟩ := Option.isSome_iff_exists.mp (h.col_selected col hc)
        exact ⟨row, mem_selectedPairs_iff.mpr ((h.paired.inverse row col).mpr hr)⟩
      covered_count := h.numCovered_eq.trans (length_selectedPairs w.matching).symm
      both_covered := by
        intro row col mark hs hm
        have hsome : (w.matching.col? row).isSome :=
          Option.isSome_iff_exists.mpr ⟨col, mem_selectedPairs_iff.mp hs⟩
        refine (h.both_covered row mark hsome (mem_preparedPairs_iff.mp hm)).imp_right ?_
        rintro ⟨hphase, hzero⟩
        have hfits : Coverage.Fits n ⟨w.snapshot.size, w.coverage.rows, w.coverage.cols⟩ :=
          ⟨hsize, h.fits.length_rows, h.fits.length_cols⟩
        have hfind := findUncoveredZero_eq (m := CostMatrix.ofGrid w.matrix.values) h.square hfits
        exact ⟨hphase, hfind.trans (congrArg Except.ok hzero)⟩
      free_zero := by
        intro col hc hfree
        refine h.col_zero col (hsize ▸ hc) (Option.eq_none_iff_forall_ne_some.mpr fun row hr => ?_)
        exact hfree row (mem_selectedPairs_iff.mpr ((h.paired.inverse row col).mpr hr)) }

end Work

variable [LinearOrder α] [LawfulScalar α] {n : Nat} {g : Grid α} {s : Snapshot α}

/-- Every phase of a run after the reduction, the last one included. -/
theorem Run.entry_sound (hg : g.IsSquare g.length) (ceiling : Ceiling) :
    ∀ w ∈ (solve ceiling g).entries, w.phase ≠ some .reduce → w.Sound g.length := by
  have hready : (Work.selected g).next.IsReady g.length := Work.selected_ready hg
  have hselected : (Work.selected g).Sound g.length := Work.IsReady.sound (Work.selected_ready hg)
  have hcourse := solve_course hg ceiling
  generalize solve ceiling g = run at hcourse
  intro w hw hphase
  cases hcourse with
  | @complete entries last passes flips p search optimal matched =>
    have hlast : (last.into .done).IsReady g.length := search.ready hready
    simp only [completed, List.cons_append, List.mem_cons, List.mem_append, List.not_mem_nil,
      or_false] at hw
    rcases hw with rfl | rfl | hw | rfl
    · exact absurd rfl hphase
    · exact hselected
    · exact search.sound hready w hw
    · exact hlast.sound
  | @spent entries last flips search incomplete =>
    simp only [List.mem_cons] at hw
    rcases hw with rfl | rfl | hw
    · exact absurd rfl hphase
    · exact hselected
    · exact search.sound hready w hw

/-- The invariant of all snapshots from the selection on. -/
theorem Run.snapshot_sound (hg : g.IsSquare n) (ceiling : Ceiling)
    (hs : s ∈ (solve ceiling g).snapshots) (hphase : s.phase ≠ some .reduce) :
    s.size = n ∧ s.Sound := by
  obtain rfl := hg.1
  obtain ⟨w, hw, rfl⟩ := List.mem_map.mp hs
  exact (entry_sound hg ceiling w hw hphase).snapshot

/-- The snapshot of the flip, two adjustments after the selection. -/
theorem Run.snapshot_sound_three :
    Grid.IsSquare 3 ([[1, 2, 3], [2, 4, 6], [3, 6, 9]] : Grid ℚ) ∧
      ∃ shown ∈ (solve (.standard 3) ([[1, 2, 3], [2, 4, 6], [3, 6, 9]] : Grid ℚ)).snapshots,
        shown.phase = some .augment ∧ shown.phase ≠ some .reduce ∧ shown.size = 3 ∧
          shown.Sound := by
  have hg : Grid.IsSquare 3 ([[1, 2, 3], [2, 4, 6], [3, 6, 9]] : Grid ℚ) := by decide
  have hrun : ((solve (.standard 3)
      ([[1, 2, 3], [2, 4, 6], [3, 6, 9]] : Grid ℚ)).snapshots.map Snapshot.phase)[10]? =
        some (some .augment) := by cbv
  rw [List.getElem?_map] at hrun
  obtain ⟨shown, hshown, haugment⟩ := Option.map_eq_some_iff.mp hrun
  have hmem := List.mem_of_getElem? hshown
  have hphase : shown.phase ≠ some .reduce := by simp [haugment]
  exact ⟨hg, shown, hmem, haugment, hphase, snapshot_sound hg (.standard 3) hmem hphase⟩

end OptimalAssignment
