import OptimalAssignment.Proofs.Solver.Alignment

/-!
The search as a whole. There are as many covered lines as selected zeros, so a pass that moves a
cover brings one more of the matched rows under cover, and between two flips there are at most as
many of them as selected zeros. This bounds the number of passes, and no run reaches the standard
ceiling.
-/
namespace OptimalAssignment

open Matching

variable {α : Type} [Scalar α] [LinearOrder α]

/-! ### Covered lines -/

namespace Coherent

variable {n : Nat} {g : Grid α} {m : Matching Nat} {c : Coverage}

theorem numCoveredRows_eq (h : Coherent n g m c) :
    c.numCoveredRows = {row ∈ m.matchedRows n | c.CoversRow row}.card := by
  rw [Coverage.numCoveredRows, count_true_eq_card]
  congr 1
  ext row
  simp only [Finset.mem_filter, Finset.mem_range, h.paired.mem_matchedRows_iff]
  constructor
  · rintro ⟨-, hc⟩
    exact ⟨h.row_selected row hc, hc⟩
  · rintro ⟨-, hc⟩
    exact ⟨by rw [h.fits.length_rows]; exact h.fits.lt_of_coversRow hc, hc⟩

/-- The covered columns are those of the selected zeros in uncovered rows. -/
theorem numCoveredCols_eq (h : Coherent n g m c) :
    c.numCoveredCols = {row ∈ m.matchedRows n | ¬ c.CoversRow row}.card := by
  rw [Coverage.numCoveredCols, count_true_eq_card]
  have hcol : ∀ col, c.cols[col]? = some true → ∃ row, m.row? col = some row ∧
      m.col? row = some col ∧ ¬ c.CoversRow row := by
    intro col hc
    obtain ⟨row, hr⟩ := Option.isSome_iff_exists.mp (h.col_selected col hc)
    have hs := (h.paired.inverse row col).mpr hr
    exact ⟨row, hr, hs, fun hcov => (h.one_cover row col hs).mp hcov hc⟩
  have hrow : ∀ row, (m.col? row).isSome → ¬ c.CoversRow row → ∃ col, m.col? row = some col ∧
      m.row? col = some row ∧ c.CoversCol col := by
    intro row hr hcov
    obtain ⟨col, hs⟩ := Option.isSome_iff_exists.mp hr
    refine ⟨col, hs, (h.paired.inverse row col).mp hs, ?_⟩
    by_contra hc
    exact hcov ((h.one_cover row col hs).mpr hc)
  refine Finset.card_bij' (fun col _ => (m.row? col).getD 0) (fun row _ => (m.col? row).getD 0)
    ?_ ?_ ?_ ?_
  · intro col hc
    obtain ⟨row, hr, hs, hcov⟩ := hcol col (Finset.mem_filter.mp hc).2
    rw [Finset.mem_filter, h.paired.mem_matchedRows_iff, hr, Option.getD_some, hs]
    exact ⟨rfl, hcov⟩
  · intro row hr
    obtain ⟨hr, hcov⟩ := Finset.mem_filter.mp hr
    obtain ⟨col, hs, -, hc⟩ := hrow row (h.paired.mem_matchedRows_iff.mp hr) hcov
    rw [Finset.mem_filter, Finset.mem_range, h.fits.length_cols, hs, Option.getD_some]
    exact ⟨h.fits.lt_of_coversCol hc, hc⟩
  · intro col hc
    obtain ⟨row, hr, hs, -⟩ := hcol col (Finset.mem_filter.mp hc).2
    simp [hr, hs]
  · intro row hr
    obtain ⟨hr, hcov⟩ := Finset.mem_filter.mp hr
    obtain ⟨col, hs, hr', -⟩ := hrow row (h.paired.mem_matchedRows_iff.mp hr) hcov
    simp [hs, hr']

/-- There are as many covered lines as selected zeros. -/
theorem numCovered_eq (h : Coherent n g m c) :
    c.numCoveredRows + c.numCoveredCols = m.numSelected := by
  rw [h.numCoveredRows_eq, h.numCoveredCols_eq, Finset.card_filter_add_card_filter_not,
    h.paired.card_matchedRows]

theorem numSelected_le (h : Coherent n g m c) : m.numSelected ≤ n := by
  rw [← h.paired.card_matchedRows]
  exact (Finset.card_filter_le _ _).trans_eq (Finset.card_range n)

theorem numSelected_lt (h : Coherent n g m c) (hd : ∃ col < n, m.row? col = none) :
    m.numSelected < n := by
  obtain ⟨row, hr, hfree⟩ := h.exists_free_row hd
  have hsubset : m.matchedRows n ⊂ Finset.range n := by
    refine Finset.filter_ssubset.mpr ⟨row, Finset.mem_range.mpr hr, ?_⟩
    rw [hfree]
    exact Bool.false_ne_true
  rw [← h.paired.card_matchedRows]
  exact (Finset.card_lt_card hsubset).trans_eq (Finset.card_range n)

/-- Once every column is covered, no row is, and every line holds a selected zero. -/
theorem numSelected_eq (h : Coherent n g m c) (ho : c.isOptimal = true) :
    c.numCoveredRows = 0 ∧ m.numSelected = n := by
  have hcols : c.numCoveredCols = n := by
    rw [← h.fits.size_eq]
    exact beq_iff_eq.mp ho
  have hsum := h.numCovered_eq
  have hle := h.numSelected_le
  omega

theorem exists_perm (h : Coherent n g m c) (ho : c.isOptimal = true) :
    ∃ p : Equiv.Perm (Fin n), ∀ i : Fin n, m.col? i = some (p i : Nat) := by
  have hcard : (m.matchedRows n).card = (Finset.range n).card := by
    rw [h.paired.card_matchedRows, (h.numSelected_eq ho).2, Finset.card_range]
  have hrows : m.matchedRows n = Finset.range n :=
    Finset.eq_of_subset_of_card_le (Finset.filter_subset _ _) hcard.ge
  refine h.paired.exists_perm fun row hr => ?_
  rw [← h.paired.mem_matchedRows_iff, hrows]
  exact Finset.mem_range.mpr hr

end Coherent

namespace Work

open CostMatrix

variable {n : Nat} {w w' : Work α} {entries : List (Work α)} {passes flips : Nat}

/-- What holds of the data at every phase from the selection on. -/
structure Sound (n : Nat) (w : Work α) : Prop
    extends Coherent n w.matrix.values w.matching w.coverage where
  both_covered : ∀ row col, (w.matching.col? row).isSome → w.matching.mark? row = some col →
    w.coverage.CoversRow row ∨ w.phase = some .search ∧
      uncoveredZero? w.coverage w.matrix.values = some (row, col)

theorem IsReady.sound (h : w.IsReady n) : w.Sound n where
  toCoherent := h.toCoherent
  both_covered row col _ hm :=
    .inl (h.marked_covered row (Option.isSome_iff_exists.mpr ⟨col, hm⟩))

/-! ### One pass -/

variable [LawfulScalar α]

theorem IsReady.covered {row col sel : Nat} (h : w.IsReady n) (ho : w.coverage.isOptimal = false)
    (zero : uncoveredZero? w.coverage w.matrix.values = some (row, col))
    (matched : w.matching.col? row = some sel) :
    ((w.found row col).next.swapped row sel).Sound n ∧
      ((w.found row col).next.swapped row sel).next.lowered.IsReady n := by
  have hfound := h.found ho zero
  have hs : (w.matching.marked row col).col? row = some sel := matched
  have hmarks : ∀ other, ((w.matching.marked row col).mark? other).isSome →
      (w.coverage.exchanged row sel).CoversRow other := fun _ => hfound.marked_exchanged hs
  have hcoherent := hfound.exchanged hs
  refine ⟨⟨hcoherent, fun other col' _ hm => .inl (hmarks other ?_)⟩,
    hcoherent.shift hmarks hfound.deficient⟩
  exact Option.isSome_iff_exists.mpr ⟨col', hm⟩

theorem IsReady.flipped {row col last : Nat} {prepared selected : List (Cell Nat)}
    {m : Matching Nat} (h : w.IsReady n) (ho : w.coverage.isOptimal = false)
    (zero : uncoveredZero? w.coverage w.matrix.values = some (row, col))
    (free : w.matching.col? row = none)
    (chain : Chain (w.matching.marked row col) col prepared selected last)
    (flip : AlternatingPath.flip ⟨(row, col) :: prepared, selected⟩ (w.matching.marked row col) =
      (m, none)) :
    Ready n w.matrix.values m (w.coverage.renewed m) ∧
      m.numSelected = w.matching.numSelected + 1 := by
  have hfound := h.found ho zero
  obtain ⟨hm, hmarks, hcol⟩ := hfound.flip_spec free chain flip
  have hnum : m.numSelected = (w.matching.marked row col).numSelected + 1 :=
    numSelected_flip hfound.paired hm chain hcol free
  exact ⟨hfound.flipped chain hm hmarks hcol, hnum⟩

namespace Pass

variable (h : w.IsReady n) (ho : w.coverage.isOptimal = false) (hp : Pass w entries w' flips)
include h ho hp

theorem ready : w'.IsReady n := by
  cases hp with
  | cover zero matched eq₁ eq₂ eq₃ =>
    rw [eq₃, eq₂, eq₁]
    exact (h.covered ho zero matched).2
  | augment zero free eq₁ chain flip eq₂ eq₃ =>
    rw [eq₁] at chain flip
    rw [eq₃, eq₂, eq₁]
    exact (h.flipped ho zero free chain flip).1

theorem sound : ∀ e ∈ entries, e.Sound n := by
  have hready := hp.ready h ho
  cases hp with
  | @cover row col sel w₁ w₂ w₃ zero matched eq₁ eq₂ eq₃ =>
    have hfound := h.found ho zero
    have h₁ : w₁.Sound n := by
      rw [eq₁]
      refine ⟨hfound.toCoherent, fun other col' _ hm => ?_⟩
      rcases hfound.marked_others other (Option.isSome_iff_exists.mpr ⟨col', hm⟩) with rfl | hcov
      · obtain rfl : col = col' := Option.some.inj (hfound.marked.symm.trans hm)
        exact .inr ⟨rfl, zero⟩
      · exact .inl hcov
    have h₂ : w₂.Sound n := by
      rw [eq₂, eq₁]
      exact (h.covered ho zero matched).1
    simp only [List.mem_cons, List.not_mem_nil, or_false, forall_eq_or_imp, forall_eq]
    exact ⟨h₁, h₂, IsReady.sound hready⟩
  | @augment row col last prepared selected m w₁ w₂ w₃ zero free eq₁ chain flip eq₂ eq₃ =>
    have hfound := h.found ho zero
    -- the row found holds no selected zero, so no exception is needed
    have hboth : ∀ other col', (w.matching.col? other).isSome →
        (w.matching.marked row col).mark? other = some col' → w.coverage.CoversRow other := by
      intro other col' hs hm
      rcases hfound.marked_others other (Option.isSome_iff_exists.mpr ⟨col', hm⟩) with rfl | hcov
      · rw [free] at hs
        contradiction
      · exact hcov
    have h₁ : w₁.Sound n := by
      rw [eq₁]
      exact ⟨hfound.toCoherent, fun other col' hs hm => .inl (hboth other col' hs hm)⟩
    have h₂ : w₂.Sound n := by
      rw [eq₂, eq₁]
      exact ⟨hfound.toCoherent, fun other col' hs hm => .inl (hboth other col' hs hm)⟩
    simp only [List.mem_cons, List.not_mem_nil, or_false, forall_eq_or_imp, forall_eq]
    exact ⟨h₁, h₂, IsReady.sound hready⟩

/-- A pass covers one more of the matched rows, or it adds a selected zero and uncovers the rows. -/
theorem progress :
    w'.matching.numSelected = w.matching.numSelected + flips ∧
      2 * (1 + w.coverage.numCoveredRows) +
          w.matching.numSelected * (w.matching.numSelected + 1) ≤
        2 * w'.coverage.numCoveredRows +
          w'.matching.numSelected * (w'.matching.numSelected + 1) := by
  cases hp with
  | @cover row col sel w₁ w₂ w₃ zero matched eq₁ eq₂ eq₃ =>
    have hfound := h.found ho zero
    have hnum : w₃.next.matching.numSelected = w.matching.numSelected := by
      rw [eq₃, eq₂, eq₁]
      rfl
    have hrows : w₃.next.coverage.numCoveredRows = w.coverage.numCoveredRows + 1 := by
      rw [eq₃, eq₂, eq₁]
      exact h.fits.numCoveredRows_exchanged (h.paired.row_lt matched) hfound.uncovered
    rw [hnum, hrows]
    omega
  | @augment row col last prepared selected m w₁ w₂ w₃ zero free eq₁ chain flip eq₂ eq₃ =>
    have hle : w.coverage.numCoveredRows ≤ w.matching.numSelected := by
      rw [← h.numCovered_eq]
      exact Nat.le_add_right _ _
    rw [eq₁] at chain flip
    have hnum : w₃.next.matching.numSelected = w.matching.numSelected + 1 := by
      rw [eq₃, eq₂, eq₁]
      exact (h.flipped ho zero free chain flip).2
    rw [hnum]
    refine ⟨rfl, ?_⟩
    -- a flip gives up the covered rows, at most as many as there were selected zeros
    nlinarith

end Pass

/-! ### Many passes -/

/-- Passes go on until every column is covered or the budget is spent. -/
theorem IsReady.exists_passes (h : w.IsReady n) (budget : Nat) :
    ∃ entries w' passes flips, Passes w entries w' passes flips ∧ passes ≤ budget ∧
      (w'.coverage.isOptimal = false → passes = budget) := by
  induction budget generalizing w with
  | zero => exact ⟨[], w, 0, 0, .none, le_rfl, fun _ => rfl⟩
  | succ budget ih =>
    cases ho : w.coverage.isOptimal with
    | true =>
      refine ⟨[], w, 0, 0, .none, Nat.zero_le _, fun hn => ?_⟩
      rw [ho] at hn
      contradiction
    | false =>
      obtain ⟨entries, w₁, flips, hpass⟩ := h.exists_pass ho
      obtain ⟨later, w', passes, flips', hrest, hle, hbudget⟩ := ih (hpass.ready h ho)
      exact ⟨_, _, _, _, .more ho hpass hrest, Nat.succ_le_succ hle, fun hn => by rw [hbudget hn]⟩

namespace Passes

variable (hp : Passes w entries w' passes flips) (h : w.IsReady n)
include hp h

theorem ready : w'.IsReady n := by
  induction hp with
  | none => exact h
  | more ho first _ ih => exact ih (first.ready h ho)

theorem sound : ∀ e ∈ entries, e.Sound n := by
  induction hp with
  | none => simp
  | more ho first _ ih =>
    intro e he
    rcases List.mem_append.mp he with he | he
    · exact first.sound h ho e he
    · exact ih (first.ready h ho) e he

theorem progress :
    w'.matching.numSelected = w.matching.numSelected + flips ∧
      2 * (passes + w.coverage.numCoveredRows) +
          w.matching.numSelected * (w.matching.numSelected + 1) ≤
        2 * w'.coverage.numCoveredRows +
          w'.matching.numSelected * (w'.matching.numSelected + 1) := by
  induction hp with
  | none => simp
  | more ho first _ ih =>
    obtain ⟨hnum, hle⟩ := first.progress h ho
    obtain ⟨hnum', hle'⟩ := ih (first.ready h ho)
    omega

end Passes

end Work

end OptimalAssignment
