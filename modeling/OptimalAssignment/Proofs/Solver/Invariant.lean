import OptimalAssignment.Proofs.Cost.Adjustment
import OptimalAssignment.Proofs.Matching.Flip

/-!
What holds of working values, matching and coverage all through the search, and how each of its
moves keeps it. No value is negative, selected and prepared cells are zeros, every selected cell has
exactly one covered line, and every column without a selected zero has a zero. Between two passes
there is an uncovered zero besides, unless every column is covered.
-/
namespace OptimalAssignment

open Matching CostMatrix

variable {α : Type} [Scalar α] [LinearOrder α]
variable {n row col : Nat} {g : Grid α} {m m' : Matching Nat} {c : Coverage}

/-- What holds at every step from the selection on. -/
structure Coherent (n : Nat) (g : Grid α) (m : Matching Nat) (c : Coverage) : Prop where
  square : g.IsSquare n
  paired : m.Paired n
  fits : c.Fits n
  nonneg : ∀ i j x, g.cell? i j = some x → 0 ≤ x
  selected_zero : ∀ row col, m.col? row = some col → g.cell? row col = some 0
  marked_zero : ∀ row col, m.mark? row = some col → g.cell? row col = some 0
  marked_open : ∀ row col, m.mark? row = some col → ¬ c.CoversCol col
  one_cover : ∀ row col, m.col? row = some col → (c.CoversRow row ↔ ¬ c.CoversCol col)
  row_selected : ∀ row, c.CoversRow row → (m.col? row).isSome
  col_selected : ∀ col, c.CoversCol col → (m.row? col).isSome
  col_zero : ∀ col < n, m.row? col = none → ∃ row, g.cell? row col = some 0
  /-- The covered rows, the latest first; their prepared zeros lead back to earlier ones. -/
  traced : ∃ order, Traced m order ∧ ∀ row, row ∈ order ↔ c.CoversRow row

/-- What holds between two passes. -/
structure Ready (n : Nat) (g : Grid α) (m : Matching Nat) (c : Coverage) : Prop
    extends Coherent n g m c where
  marked_covered : ∀ row, (m.mark? row).isSome → c.CoversRow row
  uncovered_zero : c.isOptimal = false →
    ∃ row col, g.cell? row col = some 0 ∧ ¬ c.CoversRow row ∧ ¬ c.CoversCol col
  deficient : c.isOptimal = false → ∃ col < n, m.row? col = none

/-- What holds after an uncovered zero was found and prepared. -/
structure Found (n row col : Nat) (g : Grid α) (m : Matching Nat) (c : Coverage) : Prop
    extends Coherent n g m c where
  marked : m.mark? row = some col
  uncovered : ¬ c.CoversRow row
  marked_others : ∀ other, (m.mark? other).isSome → other = row ∨ c.CoversRow other
  deficient : ∃ col < n, m.row? col = none

namespace Coherent

theorem marked_of_coversRow (h : Coherent n g m c) (hr : c.CoversRow row) :
    (m.mark? row).isSome := by
  obtain ⟨order, htraced, hcovered⟩ := h.traced
  exact htraced.marked ((hcovered row).mpr hr)

theorem mark_lt (h : Coherent n g m c) : ∀ row col, m.mark? row = some col → col < n :=
  fun row col hm => (h.square.lt_of_cell? (h.marked_zero row col hm)).2

theorem not_coversRow (h : Coherent n g m c) (hfree : m.col? row = none) :
    ¬ c.CoversRow row := by
  intro hcov
  have hsome := h.row_selected row hcov
  rw [hfree] at hsome
  contradiction

theorem not_coversCol (h : Coherent n g m c) (hfree : m.row? col = none) :
    ¬ c.CoversCol col := by
  intro hcov
  have hsome := h.col_selected col hcov
  rw [hfree] at hsome
  contradiction

theorem isOptimal_eq_false (h : Coherent n g m c) (hd : ∃ col < n, m.row? col = none) :
    c.isOptimal = false := by
  obtain ⟨col, hc, hfree⟩ := hd
  rw [Bool.eq_false_iff]
  exact fun hall => h.not_coversCol hfree (h.fits.isOptimal_iff.mp hall col hc)

/-- Columns without a selected zero and rows without one come together. -/
theorem exists_free_row (h : Coherent n g m c) (hd : ∃ col < n, m.row? col = none) :
    ∃ row < n, m.col? row = none := by
  by_contra hall
  push Not at hall
  obtain ⟨col, hc, hfree⟩ := hd
  have hrows : m.matchedRows n = Finset.range n :=
    Finset.filter_true_of_mem fun row hr => Option.isSome_iff_ne_none.mpr
      (hall row (Finset.mem_range.mp hr))
  have hcols : m.matchedCols n = Finset.range n := by
    refine Finset.eq_of_subset_of_card_le (Finset.filter_subset _ _) ?_
    rw [h.paired.card_matchedCols, ← h.paired.card_matchedRows, hrows]
  have hmem : col ∈ m.matchedCols n := by rw [hcols]; exact Finset.mem_range.mpr hc
  rw [h.paired.mem_matchedCols_iff, hfree] at hmem
  contradiction

end Coherent

/-! ### Finding a zero -/

theorem Ready.found (h : Ready n g m c) (ho : c.isOptimal = false)
    (hz : g.cell? row col = some 0) (hr : ¬ c.CoversRow row) (hc : ¬ c.CoversCol col) :
    Found n row col g (m.marked row col) c := by
  have hrow := (h.square.lt_of_cell? hz).1
  have hmark : ∀ row', (m.marked row col).mark? row' = if row' = row then some col
      else m.mark? row' := h.paired.mark?_marked hrow
  have hcases : ∀ row' col', (m.marked row col).mark? row' = some col' →
      row' = row ∧ col' = col ∨ m.mark? row' = some col' := by
    intro row' col' hm
    rw [hmark] at hm
    split at hm
    · rename_i he
      exact .inl ⟨he, (Option.some.inj hm).symm⟩
    · exact .inr hm
  obtain ⟨order, htraced, hcovered⟩ := h.traced
  refine
    { square := h.square
      paired := h.paired.marked row col
      fits := h.fits
      nonneg := h.nonneg
      selected_zero := h.selected_zero
      marked_zero := ?_
      marked_open := ?_
      one_cover := h.one_cover
      row_selected := h.row_selected
      col_selected := h.col_selected
      col_zero := h.col_zero
      traced := ⟨order, htraced.congr ?_ rfl, hcovered⟩
      marked := by rw [hmark, if_pos rfl]
      uncovered := hr
      marked_others := ?_
      deficient := h.deficient ho }
  · intro row' col' hm
    rcases hcases row' col' hm with ⟨rfl, rfl⟩ | hm
    · exact hz
    · exact h.marked_zero row' col' hm
  · intro row' col' hm
    rcases hcases row' col' hm with ⟨rfl, rfl⟩ | hm
    · exact hc
    · exact h.marked_open row' col' hm
  · -- the rows of the trace are covered and the row found is not, so their marks stay
    intro row' hmem
    rw [hmark, if_neg]
    rintro rfl
    exact hr ((hcovered row').mp hmem)
  · intro other hm
    rw [hmark] at hm
    split at hm
    · rename_i he
      exact .inl he
    · exact .inr (h.marked_covered other hm)

theorem Found.lt (h : Found n row col g m c) : row < n ∧ col < n :=
  h.square.lt_of_cell? (h.marked_zero row col h.marked)

/-- The chain from the column found ends, since selected zeros in uncovered columns lie in covered
rows. -/
theorem Found.exists_chain (h : Found n row col g m c) :
    ∃ prepared selected last, Chain m col prepared selected last := by
  obtain ⟨order, htraced, hcovered⟩ := h.traced
  refine htraced.exists_chain fun other hother => ?_
  have hs := (h.paired.inverse other col).mpr hother
  rw [hcovered, h.one_cover other col hs]
  exact h.marked_open row col h.marked

/-! ### Moving a cover -/

/-- The cover moves from the selected column of the row found to the row. -/
theorem Found.exchanged (h : Found n row col g m c) {sel : Nat} (hs : m.col? row = some sel) :
    Coherent n g m (c.exchanged row sel) := by
  have hrow : ∀ i, (c.exchanged row sel).CoversRow i ↔ i = row ∨ c.CoversRow i :=
    h.fits.coversRow_exchanged (h.paired.row_lt hs)
  have hcol : ∀ j, (c.exchanged row sel).CoversCol j ↔ j ≠ sel ∧ c.CoversCol j :=
    h.fits.coversCol_exchanged (h.paired.col_lt hs)
  obtain ⟨order, htraced, hcovered⟩ := h.traced
  refine
    { square := h.square
      paired := h.paired
      fits := h.fits.exchanged row sel
      nonneg := h.nonneg
      selected_zero := h.selected_zero
      marked_zero := h.marked_zero
      marked_open := fun row' col' hm hc => h.marked_open row' col' hm ((hcol col').mp hc).2
      one_cover := ?_
      row_selected := ?_
      col_selected := fun col' hc => h.col_selected col' ((hcol col').mp hc).2
      col_zero := h.col_zero
      traced := ⟨row :: order, ⟨⟨col, h.marked, ?_⟩, htraced⟩, ?_⟩ }
  · intro row' col' hc
    rw [hrow, hcol]
    by_cases hr : row' = row
    · subst hr
      rw [hs] at hc
      simp [Option.some.inj hc]
    · have hne : col' ≠ sel := fun he => hr (h.paired.col_inj (he ▸ hc) hs)
      simp [hr, hne, h.one_cover row' col' hc]
  · intro row' hc
    rcases (hrow row').mp hc with rfl | hc
    · rw [hs]
      rfl
    · exact h.row_selected row' hc
  · -- the column of the new mark is uncovered, so a row selected in it is covered already
    intro other hother
    rw [hcovered]
    exact (h.one_cover other col ((h.paired.inverse other col).mpr hother)).mpr
      (h.marked_open row col h.marked)
  · intro row'
    rw [hrow, List.mem_cons, hcovered]

theorem Found.marked_exchanged (h : Found n row col g m c) {sel : Nat} (hs : m.col? row = some sel)
    {other : Nat} (hm : (m.mark? other).isSome) : (c.exchanged row sel).CoversRow other :=
  (h.fits.coversRow_exchanged (h.paired.row_lt hs) other).mpr (h.marked_others other hm)

/-! ### Covering the selected columns -/

/-- The start of a phase: exactly the columns with a selected zero are covered. -/
theorem ready_renewed (hsquare : g.IsSquare n) (hm : m.Paired n) (hc : c.Fits n)
    (hnonneg : ∀ i j x, g.cell? i j = some x → 0 ≤ x)
    (hselected : ∀ row col, m.col? row = some col → g.cell? row col = some 0)
    (hmarks : ∀ row, m.mark? row = none)
    (hzero : ∀ col < n, m.row? col = none → ∃ row, g.cell? row col = some 0) :
    Ready n g m (c.renewed m) := by
  have hdeficient : (c.renewed m).isOptimal = false → ∃ col < n, m.row? col = none := by
    intro ho
    by_contra hall
    push Not at hall
    have : (c.renewed m).isOptimal = true := (hc.renewed hm).isOptimal_iff.mpr fun col hlt =>
      (Coverage.coversCol_renewed c m col).mpr (Option.isSome_iff_ne_none.mpr (hall col hlt))
    rw [ho] at this
    contradiction
  refine
    { square := hsquare
      paired := hm
      fits := hc.renewed hm
      nonneg := hnonneg
      selected_zero := hselected
      marked_zero := fun row col h => by rw [hmarks] at h; contradiction
      marked_open := fun row col h => by rw [hmarks] at h; contradiction
      one_cover := ?_
      row_selected := fun row h => absurd h (Coverage.not_coversRow_renewed c m row)
      col_selected := fun col h => (Coverage.coversCol_renewed c m col).mp h
      col_zero := hzero
      traced := ⟨[], trivial, fun row => by simp⟩
      marked_covered := fun row h => by rw [hmarks] at h; contradiction
      uncovered_zero := ?_
      deficient := hdeficient }
  · intro row col hs
    have hcov : (c.renewed m).CoversCol col := (Coverage.coversCol_renewed c m col).mpr
      (Option.isSome_iff_exists.mpr ⟨row, (hm.inverse row col).mp hs⟩)
    simp [hcov]
  · intro ho
    obtain ⟨col, hlt, hfree⟩ := hdeficient ho
    obtain ⟨row, hz⟩ := hzero col hlt hfree
    refine ⟨row, col, hz, Coverage.not_coversRow_renewed c m row, ?_⟩
    rw [Coverage.coversCol_renewed, hfree]
    exact Bool.false_ne_true

/-- What becomes of the matching when the path from the row found, if it is free, is flipped. -/
theorem Found.flip_spec (h : Found n row col g m c) (hfree : m.col? row = none)
    {prepared selected : List (Cell Nat)} {last : Nat}
    (hchain : Chain m col prepared selected last)
    (hflip : AlternatingPath.flip ⟨(row, col) :: prepared, selected⟩ m = (m', none)) :
    m'.Paired n ∧ (∀ row, m'.mark? row = none) ∧
      ∀ row' col', m'.col? row' = some col' ↔ (row', col') ∈ (row, col) :: prepared ∨
        m.col? row' = some col' ∧ row' ∉ selected.map Prod.fst := by
  obtain ⟨m₁, hflip₁, hspec⟩ :=
    Matching.flip_spec h.paired h.mark_lt hchain h.lt.1 h.lt.2 hfree
  obtain rfl : m₁ = m' := (Prod.mk.inj (hflip₁.symm.trans hflip)).1
  exact hspec

/-- Flipping the path from the row found, if it is free, starts a phase. -/
theorem Found.flipped (h : Found n row col g m c) {prepared selected : List (Cell Nat)} {last : Nat}
    (hchain : Chain m col prepared selected last) (hm' : m'.Paired n)
    (hmarks : ∀ row, m'.mark? row = none)
    (hflip : ∀ row' col', m'.col? row' = some col' ↔ (row', col') ∈ (row, col) :: prepared ∨
      m.col? row' = some col' ∧ row' ∉ selected.map Prod.fst) :
    Ready n g m' (c.renewed m') := by
  refine ready_renewed h.square hm' h.fits h.nonneg ?_ hmarks ?_
  · intro row' col' hs
    rcases (hflip row' col').mp hs with hmem | ⟨hs, -⟩
    · rcases List.mem_cons.mp hmem with he | hmem
      · obtain ⟨rfl, rfl⟩ := Prod.mk.inj he
        exact h.marked_zero row' col' h.marked
      · exact h.marked_zero row' col' (hchain.mark?_of_mem hmem)
    · exact h.selected_zero row' col' hs
  · intro col' hc hfree
    refine h.col_zero col' hc (Option.eq_none_iff_forall_ne_some.mpr fun row' hr => ?_)
    have := (isSome_row?_flip h.paired hm' hchain hflip col').mpr
      (.inr (Option.isSome_iff_exists.mpr ⟨row', hr⟩))
    rw [hfree] at this
    contradiction

/-! ### Adjusting -/

theorem Coherent.exists_uncovered (h : Coherent n g m c) (hd : ∃ col < n, m.row? col = none) :
    ∃ row < n, ∃ col < n, ¬ c.CoversRow row ∧ ¬ c.CoversCol col := by
  obtain ⟨row, hr, hfree⟩ := h.exists_free_row hd
  obtain ⟨col, hc, hfree'⟩ := hd
  exact ⟨row, hr, col, hc, h.not_coversRow hfree, h.not_coversCol hfree'⟩

variable [LawfulScalar α]

/-- An adjustment keeps everything, if every prepared zero is in a covered row, and leaves an
uncovered zero. -/
theorem Coherent.shift (h : Coherent n g m c)
    (hmarks : ∀ row, (m.mark? row).isSome → c.CoversRow row)
    (hd : ∃ col < n, m.row? col = none) :
    Ready n (shift c (leastUncovered c g) g) m c := by
  obtain ⟨i, hi, j, hj, hri, hcj⟩ := h.exists_uncovered hd
  obtain ⟨i₀, j₀, hcell₀, hr₀, hc₀⟩ := exists_leastUncovered h.square h.fits hi hj hri hcj
  have hcell : ∀ i j y, (CostMatrix.shift c (leastUncovered c g) g).cell? i j = some y ↔
      ∃ x, g.cell? i j = some x ∧ moved c (leastUncovered c g) i j x = y :=
    fun i j y => cell?_shift_eq_some_iff h.square h.fits
  have hkeep : ∀ i j, g.cell? i j = some 0 → (c.CoversRow i ↔ ¬ c.CoversCol j) →
      (CostMatrix.shift c (leastUncovered c g) g).cell? i j = some 0 :=
    fun i j hz hone => (hcell i j 0).mpr ⟨0, hz, moved_covered hone⟩
  have hleast : 0 ≤ leastUncovered c g := h.nonneg i₀ j₀ _ hcell₀
  refine
    { square := isSquare_shift h.square h.fits _
      paired := h.paired
      fits := h.fits
      nonneg := ?_
      selected_zero := fun row col hs =>
        hkeep row col (h.selected_zero row col hs) (h.one_cover row col hs)
      marked_zero := ?_
      marked_open := h.marked_open
      one_cover := h.one_cover
      row_selected := h.row_selected
      col_selected := h.col_selected
      col_zero := ?_
      traced := h.traced
      marked_covered := hmarks
      uncovered_zero := fun _ => ⟨i₀, j₀, ?_, hr₀, hc₀⟩
      deficient := fun _ => hd }
  · intro i j y hy
    obtain ⟨x, hx, rfl⟩ := (hcell i j y).mp hy
    rw [moved]
    split_ifs with hboth hone
    · exact LawfulScalar.add_nonneg (h.nonneg i j x hx) hleast
    · exact h.nonneg i j x hx
    · obtain ⟨hr, hc⟩ := not_or.mp hone
      exact LawfulScalar.sub_nonneg (leastUncovered_le h.square h.fits hx hr hc)
  · intro row col hm
    refine hkeep row col (h.marked_zero row col hm) ?_
    simp [h.marked_open row col hm, hmarks row (Option.isSome_iff_exists.mpr ⟨col, hm⟩)]
  · intro col hc hfree
    obtain ⟨row, hz⟩ := h.col_zero col hc hfree
    have hopen : ¬ c.CoversCol col := h.not_coversCol hfree
    by_cases hr : c.CoversRow row
    · exact ⟨row, hkeep row col hz (by simp [hr, hopen])⟩
    · -- an uncovered zero is itself the least uncovered value
      have hzero : leastUncovered c g = 0 :=
        le_antisymm (leastUncovered_le h.square h.fits hz hr hopen) hleast
      refine ⟨row, (hcell row col 0).mpr ⟨0, hz, ?_⟩⟩
      rw [moved_uncovered hr hopen, hzero, LawfulScalar.sub_zero]
  · exact (hcell i₀ j₀ 0).mpr ⟨_, hcell₀, by rw [moved_uncovered hr₀ hc₀, LawfulScalar.sub_self]⟩

end OptimalAssignment
