import Mathlib
import OptimalAssignment.Matching.Basic

/-!
Matchings as partial maps. The two records of a matching are read as a map from rows to columns and
a map from columns to rows. A matching is paired if each map undoes the other; selecting a free cell
and unselecting a selected one succeed and keep it so.
-/
namespace OptimalAssignment

/-- The number of entries of a kind is the number of their places. -/
theorem countP_eq_card {β : Type} (p : β → Bool) (xs : List β) :
    xs.countP p =
      (Finset.filter (fun i => (xs[i]?).any p = true) (Finset.range xs.length)).card := by
  induction xs with
  | nil => rfl
  | cons x xs ih =>
    rw [List.countP_cons, ih, List.length_cons, Finset.card_filter, Finset.card_filter,
      Finset.sum_range_succ']
    simp

theorem count_true_eq_card (flags : List Bool) :
    flags.count true =
      (Finset.filter (fun i => flags[i]? = some true) (Finset.range flags.length)).card := by
  have he : ∀ flag : Option Bool, flag.any (· == true) = true ↔ flag = some true := by decide
  rw [List.count, countP_eq_card]
  simp only [he]

/-- Names that a partial map keeps stay in order. -/
theorem map_filterMap_sublist {β γ δ : Type} {f : β → Option γ} {p : γ → δ} {q : β → δ}
    (h : ∀ x y, f x = some y → p y = q x) (xs : List β) :
    ((xs.filterMap f).map p).Sublist (xs.map q) := by
  induction xs with
  | nil => simp
  | cons x xs ih =>
    cases hx : f x with
    | none => simpa [hx] using ih.cons (q x)
    | some y => simpa [hx, h x y hx] using ih

namespace Matching

/-! ### Slots -/

/-- What a slot holds; nothing beyond the last slot. -/
def content (slots : List (Option Nat)) (i : Nat) : Option Nat :=
  slots[i]?.join

variable {slots : List (Option Nat)} {i k : Nat} {x : Option Nat}

theorem content_eq_some_iff : content slots i = some k ↔ slots[i]? = some (some k) := by
  simp [content, Option.join_eq_some_iff]

theorem lt_of_content (h : content slots i = some k) : i < slots.length :=
  (List.getElem?_eq_some_iff.mp (content_eq_some_iff.mp h)).1

theorem getElem?_of_lt (h : i < slots.length) : slots[i]? = some (content slots i) := by
  simp [content, h]

theorem content_set (h : i < slots.length) :
    content (slots.set i x) k = if k = i then x else content slots k := by
  by_cases hk : k = i
  · subst hk
    simp [content, h]
  · simp [content, List.getElem?_set_ne (Ne.symm hk), hk]

theorem isSome_content (slots : List (Option Nat)) (i : Nat) :
    (content slots i).isSome = (slots[i]?).any Option.isSome := by
  rw [content]
  cases slots[i]? <;> rfl

@[simp] theorem content_replicate (n : Nat) : content (List.replicate n none) i = none := by
  rw [content, List.getElem?_replicate]
  split <;> rfl

theorem slotAt_eq (h : i < slots.length) : slotAt slots i = .ok (content slots i) := by
  simp [slotAt, Position.get?_nat, getElem?_of_lt h]

theorem writeAt_eq (h : i < slots.length) : writeAt slots i x = .ok (slots.set i x) := by
  simp [writeAt, Position.set?_nat, h]

theorem mem_filled_iff : (i, k) ∈ filled slots ↔ content slots i = some k := by
  rw [filled, List.mem_filterMap, content_eq_some_iff]
  constructor
  · rintro ⟨⟨slot, i'⟩, hmem, hs⟩
    obtain ⟨k', rfl, he⟩ := Option.map_eq_some_iff.mp hs
    obtain ⟨rfl, rfl⟩ := Prod.mk.inj he
    exact List.mk_mem_zipIdx_iff_getElem?.mp hmem
  · intro h
    exact ⟨(some k, i), List.mk_mem_zipIdx_iff_getElem?.mpr h, rfl⟩

theorem length_filled (slots : List (Option Nat)) :
    (filled slots).length = slots.countP Option.isSome := by
  rw [filled, List.length_filterMap_eq_countP]
  have he : (fun entry : Option Nat × Nat => (entry.1.map (entry.2, ·)).isSome) =
      Option.isSome ∘ Prod.fst := by
    funext entry
    simp
  rw [he, ← List.countP_map, List.zipIdx_map_fst]

theorem nodup_fst_filled (slots : List (Option Nat)) : ((filled slots).map Prod.fst).Nodup := by
  have hrows : (slots.zipIdx.map Prod.snd).Nodup := by
    rw [List.zipIdx_map_snd]
    exact List.nodup_range'
  refine hrows.sublist (map_filterMap_sublist ?_ _)
  rintro ⟨slot, i⟩ entry he
  obtain ⟨k, -, rfl⟩ := Option.map_eq_some_iff.mp he
  rfl

theorem filled_eq_nil (h : ∀ i, content slots i = none) : filled slots = [] := by
  refine List.eq_nil_iff_forall_not_mem.mpr fun ⟨i, k⟩ hmem => ?_
  have hcontent := mem_filled_iff.mp hmem
  rw [h] at hcontent
  contradiction

/-! ### The two maps -/

/-- The column of the selected zero of a row. -/
def col? (m : Matching Nat) (row : Nat) : Option Nat :=
  content m.colOfRow row

/-- The row of the selected zero of a column. -/
def row? (m : Matching Nat) (col : Nat) : Option Nat :=
  content m.rowOfCol col

/-- The column of the prepared zero of a row. -/
def mark? (m : Matching Nat) (row : Nat) : Option Nat :=
  content m.markOfRow row

/-- A matching of `n` rows and `n` columns whose two records of selected zeros agree. -/
structure Paired (n : Nat) (m : Matching Nat) : Prop where
  size_eq : m.size = n
  length_cols : m.colOfRow.length = n
  length_rows : m.rowOfCol.length = n
  length_marks : m.markOfRow.length = n
  inverse : ∀ row col, m.col? row = some col ↔ m.row? col = some row

variable {n row col : Nat} {m : Matching Nat}

theorem mem_selectedPairs_iff : (row, col) ∈ m.selectedPairs ↔ m.col? row = some col :=
  mem_filled_iff

theorem mem_preparedPairs_iff : (row, col) ∈ m.preparedPairs ↔ m.mark? row = some col :=
  mem_filled_iff

theorem length_selectedPairs (m : Matching Nat) : m.selectedPairs.length = m.numSelected :=
  length_filled m.colOfRow

theorem paired_empty (n : Nat) : Paired n (.empty Nat n) where
  size_eq := rfl
  length_cols := List.length_replicate
  length_rows := List.length_replicate
  length_marks := List.length_replicate
  inverse row col := by simp [col?, row?, empty]

namespace Paired

theorem row_lt (h : m.Paired n) (hc : m.col? row = some col) : row < n := by
  rw [← h.length_cols]
  exact lt_of_content hc

theorem col_lt (h : m.Paired n) (hc : m.col? row = some col) : col < n := by
  rw [← h.length_rows]
  exact lt_of_content ((h.inverse row col).mp hc)

theorem col_inj (h : m.Paired n) {row' : Nat} (hc : m.col? row = some col)
    (hc' : m.col? row' = some col) : row = row' := by
  have hr := (h.inverse row col).mp hc
  rw [(h.inverse row' col).mp hc'] at hr
  exact (Option.some.inj hr).symm

theorem selectedCol_eq (h : m.Paired n) (hr : row < n) : m.selectedCol row = .ok (m.col? row) :=
  slotAt_eq (by rw [h.length_cols]; exact hr)

theorem selectedRow_eq (h : m.Paired n) (hc : col < n) : m.selectedRow col = .ok (m.row? col) :=
  slotAt_eq (by rw [h.length_rows]; exact hc)

theorem preparedCol_eq (h : m.Paired n) (hr : row < n) : m.preparedCol row = .ok (m.mark? row) :=
  slotAt_eq (by rw [h.length_marks]; exact hr)

end Paired

/-! ### Operations -/

section Inverse

variable {f g : Nat → Option Nat} (h : ∀ row col, f row = some col ↔ g col = some row)
include h

theorem inverse_erase (hs : f row = some col) (row' col' : Nat) :
    (if row' = row then none else f row') = some col' ↔
      (if col' = col then none else g col') = some row' := by
  have hg := (h row col).mp hs
  by_cases hr : row' = row
  · by_cases hc : col' = col
    · simp [hr, hc]
    · have hne : g col' ≠ some row := fun hrow =>
        hc (Option.some.inj (((h row col').mpr hrow).symm.trans hs))
      simp [hr, hc, hne]
  · by_cases hc : col' = col
    · have hne : f row' ≠ some col := fun hcol =>
        hr (Option.some.inj (((h row' col).mp hcol).symm.trans hg))
      simp [hr, hc, hne]
    · simpa [hr, hc] using h row' col'

theorem inverse_insert (hf : f row = none) (hg : g col = none) (row' col' : Nat) :
    (if row' = row then some col else f row') = some col' ↔
      (if col' = col then some row else g col') = some row' := by
  by_cases hr : row' = row
  · by_cases hc : col' = col
    · simp [hr, hc]
    · have hne : g col' ≠ some row := fun hrow =>
        Option.some_ne_none col' (((h row col').mpr hrow).symm.trans hf)
      simp [hr, hc, hne, Ne.symm hc]
  · by_cases hc : col' = col
    · have hne : f row' ≠ some col := fun hcol =>
        Option.some_ne_none row' (((h row' col).mp hcol).symm.trans hg)
      simp [hr, hc, hne, Ne.symm hr]
    · simpa [hr, hc] using h row' col'

end Inverse

/-- The matching with a zero recorded as the candidate of its row. -/
def marked (row col : Nat) (m : Matching Nat) : Matching Nat :=
  { m with markOfRow := m.markOfRow.set row (some col) }

namespace Paired

theorem marked (h : m.Paired n) (row col : Nat) : (m.marked row col).Paired n where
  size_eq := h.size_eq
  length_cols := h.length_cols
  length_rows := h.length_rows
  length_marks := by simp [Matching.marked, h.length_marks]
  inverse := h.inverse

theorem mark?_marked (h : m.Paired n) (hr : row < n) (row' : Nat) :
    (m.marked row col).mark? row' = if row' = row then some col else m.mark? row' :=
  content_set (by rw [h.length_marks]; exact hr)

theorem prepare_eq (h : m.Paired n) (hr : row < n) :
    m.prepare row col = .ok (m.marked row col) := by
  simp [prepare, Matching.marked, writeAt_eq, h.length_marks, hr, bind, Except.bind, pure,
    Except.pure]

/-- The selected zero of a row can be unselected, and nothing else changes. -/
theorem unselect (h : m.Paired n) (hs : m.col? row = some col) :
    ∃ m', m.unselect row col = .ok m' ∧ m'.Paired n ∧ m'.markOfRow = m.markOfRow ∧
      ∀ row', m'.col? row' = if row' = row then none else m.col? row' := by
  have hr : row < m.colOfRow.length := lt_of_content hs
  have hc : col < m.rowOfCol.length := lt_of_content ((h.inverse row col).mp hs)
  refine ⟨{ m with colOfRow := m.colOfRow.set row none, rowOfCol := m.rowOfCol.set col none },
    ?_, ⟨h.size_eq, ?_, ?_, h.length_marks, ?_⟩, rfl, fun row' => content_set hr⟩
  · simp [Matching.unselect, h.selectedCol_eq (h.row_lt hs), hs, writeAt_eq, hr, hc, bind,
      Except.bind, pure, Except.pure]
  · simp [h.length_cols]
  · simp [h.length_rows]
  · intro row' col'
    rw [col?, row?, content_set hr, content_set hc]
    exact inverse_erase h.inverse hs row' col'

/-- A cell in a free row and a free column can be selected, and nothing else changes. -/
theorem select (h : m.Paired n) (hr : row < n) (hc : col < n) (hcol : m.col? row = none)
    (hrow : m.row? col = none) :
    ∃ m', m.select row col = .ok m' ∧ m'.Paired n ∧ m'.markOfRow = m.markOfRow ∧
      ∀ row', m'.col? row' = if row' = row then some col else m.col? row' := by
  have hr' : row < m.colOfRow.length := by rw [h.length_cols]; exact hr
  have hc' : col < m.rowOfCol.length := by rw [h.length_rows]; exact hc
  refine ⟨{ m with
      colOfRow := m.colOfRow.set row (some col), rowOfCol := m.rowOfCol.set col (some row) },
    ?_, ⟨h.size_eq, ?_, ?_, h.length_marks, ?_⟩, rfl, fun row' => content_set hr'⟩
  · simp [Matching.select, isTaken, h.selectedCol_eq hr, h.selectedRow_eq hc, hcol, hrow,
      writeAt_eq, hr', hc', bind, Except.bind, pure, Except.pure]
  · simp [h.length_cols]
  · simp [h.length_rows]
  · intro row' col'
    rw [col?, row?, content_set hr', content_set hc']
    exact inverse_insert h.inverse hcol hrow row' col'

theorem clearSelected (h : m.Paired n) : (m.clearSelected n).Paired n where
  size_eq := h.size_eq
  length_cols := List.length_replicate
  length_rows := List.length_replicate
  length_marks := h.length_marks
  inverse row col := by simp [col?, row?, Matching.clearSelected]

theorem clearPrepared (h : m.Paired n) : m.clearPrepared.Paired n where
  size_eq := h.size_eq
  length_cols := h.length_cols
  length_rows := h.length_rows
  length_marks := by simp [Matching.clearPrepared, h.size_eq]
  inverse := h.inverse

end Paired

@[simp] theorem col?_clearSelected (m : Matching Nat) (n row : Nat) :
    (m.clearSelected n).col? row = none :=
  content_replicate n

@[simp] theorem row?_clearSelected (m : Matching Nat) (n col : Nat) :
    (m.clearSelected n).row? col = none :=
  content_replicate n

@[simp] theorem mark?_clearPrepared (m : Matching Nat) (row : Nat) :
    m.clearPrepared.mark? row = none :=
  content_replicate m.size

/-! ### The lists of pairs -/

theorem mem_selectedRows_iff : row ∈ m.selectedPairs.map Prod.fst ↔ (m.col? row).isSome := by
  simp [mem_selectedPairs_iff, Option.isSome_iff_exists]

theorem mem_preparedRows_iff : row ∈ m.preparedPairs.map Prod.fst ↔ (m.mark? row).isSome := by
  simp [mem_preparedPairs_iff, Option.isSome_iff_exists]

namespace Paired

theorem mem_selectedCols_iff (h : m.Paired n) :
    col ∈ m.selectedPairs.map Prod.snd ↔ (m.row? col).isSome := by
  simp [mem_selectedPairs_iff, h.inverse, Option.isSome_iff_exists]

theorem nodup_cols (h : m.Paired n) : (m.selectedPairs.map Prod.snd).Nodup := by
  have hrows := List.pairwise_map.mp (nodup_fst_filled m.colOfRow)
  refine List.pairwise_map.mpr (hrows.imp_of_mem ?_)
  rintro ⟨row, col⟩ ⟨row', col'⟩ hmem hmem' hne rfl
  exact hne (h.col_inj (mem_selectedPairs_iff.mp hmem) (mem_selectedPairs_iff.mp hmem'))

/-- A row without a prepared zero gets one. -/
theorem preparedPairs_marked (h : m.Paired n) (hr : row < n) (hfree : m.mark? row = none) :
    (m.marked row col).preparedPairs.Perm ((row, col) :: m.preparedPairs) := by
  have hnew : (row, col) ∉ m.preparedPairs := by
    rw [mem_preparedPairs_iff, hfree]
    exact Option.some_ne_none col ∘ Eq.symm
  have hnodup : ((row, col) :: m.preparedPairs).Nodup :=
    List.nodup_cons.mpr ⟨hnew, (nodup_fst_filled m.markOfRow).of_map⟩
  have hnodup' : (m.marked row col).preparedPairs.Nodup := (nodup_fst_filled _).of_map
  rw [List.perm_ext_iff_of_nodup hnodup' hnodup]
  rintro ⟨row', col'⟩
  rw [mem_preparedPairs_iff, h.mark?_marked hr, List.mem_cons, mem_preparedPairs_iff,
    Prod.mk.injEq]
  by_cases hrow : row' = row
  · simp [hrow, hfree, eq_comm]
  · simp [hrow]

end Paired

/-! ### Counting -/

/-- The rows that hold a selected zero. -/
def matchedRows (n : Nat) (m : Matching Nat) : Finset Nat :=
  {row ∈ Finset.range n | (m.col? row).isSome}

/-- The columns that hold a selected zero. -/
def matchedCols (n : Nat) (m : Matching Nat) : Finset Nat :=
  {col ∈ Finset.range n | (m.row? col).isSome}

namespace Paired

theorem mem_matchedRows_iff (h : m.Paired n) : row ∈ m.matchedRows n ↔ (m.col? row).isSome := by
  simp only [matchedRows, Finset.mem_filter, Finset.mem_range, and_iff_right_iff_imp]
  intro hs
  obtain ⟨col, hc⟩ := Option.isSome_iff_exists.mp hs
  exact h.row_lt hc

theorem mem_matchedCols_iff (h : m.Paired n) : col ∈ m.matchedCols n ↔ (m.row? col).isSome := by
  simp only [matchedCols, Finset.mem_filter, Finset.mem_range, and_iff_right_iff_imp]
  intro hs
  obtain ⟨row, hr⟩ := Option.isSome_iff_exists.mp hs
  exact h.col_lt ((h.inverse row col).mpr hr)

theorem card_matchedRows (h : m.Paired n) : (m.matchedRows n).card = m.numSelected := by
  rw [numSelected, countP_eq_card, h.length_cols, matchedRows]
  simp only [col?, isSome_content]

theorem card_matchedCols (h : m.Paired n) : (m.matchedCols n).card = m.numSelected := by
  rw [← h.card_matchedRows]
  refine Finset.card_bij' (fun col _ => (m.row? col).getD 0) (fun row _ => (m.col? row).getD 0)
    ?_ ?_ ?_ ?_
  · intro col hc
    obtain ⟨row, hr⟩ := Option.isSome_iff_exists.mp (h.mem_matchedCols_iff.mp hc)
    rw [h.mem_matchedRows_iff, hr, Option.getD_some, (h.inverse row col).mpr hr]
    rfl
  · intro row hr
    obtain ⟨col, hc⟩ := Option.isSome_iff_exists.mp (h.mem_matchedRows_iff.mp hr)
    rw [h.mem_matchedCols_iff, hc, Option.getD_some, (h.inverse row col).mp hc]
    rfl
  · intro col hc
    obtain ⟨row, hr⟩ := Option.isSome_iff_exists.mp (h.mem_matchedCols_iff.mp hc)
    simp [hr, (h.inverse row col).mpr hr]
  · intro row hr
    obtain ⟨col, hc⟩ := Option.isSome_iff_exists.mp (h.mem_matchedRows_iff.mp hr)
    simp [hc, (h.inverse row col).mp hc]

end Paired

end Matching

end OptimalAssignment
