import OptimalAssignment.Cost.Matrix
import OptimalAssignment.Proofs.Cost.Order
import OptimalAssignment.Proofs.Cost.Cell

/-!
Reduced grids. After every row was lowered by its least value, and then every column, no value is
negative, and every row and every column holds a zero. The zero that a row received survives the
lowering of the columns, since its column has no smaller value. A grid of this form has only zeros
for minima, so it is left as it is when it is lowered once more.
-/
namespace OptimalAssignment

namespace Grid

variable {α : Type}

/-- The values of a column from the first row to the last. -/
def column (g : Grid α) (j : Nat) : List α :=
  g.filterMap (·[j]?)

theorem mem_column_iff {g : Grid α} {j : Nat} {x : α} :
    x ∈ g.column j ↔ ∃ i, g.cell? i j = some x := by
  simp only [column, List.mem_filterMap, cell?_eq_some_iff]
  constructor
  · rintro ⟨row, hrow, hx⟩
    obtain ⟨i, hi⟩ := List.mem_iff_getElem?.mp hrow
    exact ⟨i, row, hi, hx⟩
  · rintro ⟨i, row, hi, hx⟩
    exact ⟨row, List.mem_of_getElem? hi, hx⟩

theorem column_cons {row : List α} {j : Nat} (rows : Grid α) (h : j < row.length) :
    column (row :: rows) j = row[j] :: column rows j := by
  simp [column, h]

end Grid

section Shape

variable {α : Type} [Scalar α] {n i j : Nat} {g : Grid α}

namespace Grid

theorem length_foldl_lower {row : List α} {rows : List (List α)}
    (h : ∀ r ∈ row :: rows, r.length = n) :
    (rows.foldl (List.zipWith Scalar.lower) row).length = n := by
  induction rows generalizing row with
  | nil => exact h row List.mem_cons_self
  | cons next rows ih =>
    apply ih
    intro r hmem
    rcases List.mem_cons.mp hmem with rfl | hmem
    · rw [List.length_zipWith, h row List.mem_cons_self, h next (by simp), min_self]
    · exact h r (by simp [hmem])

theorem length_colMinima (hg : g.IsSquare n) : (colMinima g).length = n := by
  cases g with
  | nil => exact hg.1
  | cons row rows => exact length_foldl_lower hg.2

end Grid

namespace CostMatrix

open Grid

theorem cell?_lowerRows_eq_some_iff {y : α} :
    (lowerRows g).cell? i j = some y ↔
      ∃ row x, g[i]? = some row ∧ row[j]? = some x ∧ x - Scalar.least row = y := by
  simp [cell?, lowerRows, Option.bind_eq_some_iff]

theorem isSquare_lowerRows (hg : g.IsSquare n) : (lowerRows g).IsSquare n := by
  constructor
  · simp [lowerRows, hg.1]
  · intro row hrow
    obtain ⟨row', hrow', rfl⟩ := List.mem_map.mp hrow
    simp [hg.2 row' hrow']

theorem cell?_lowerCols_eq_some_iff {y : α} :
    (lowerCols g).cell? i j = some y ↔
      ∃ x m, g.cell? i j = some x ∧ (colMinima g)[j]? = some m ∧ x - m = y := by
  simp only [lowerCols, cell?_eq_some_iff, List.getElem?_map, Option.map_eq_some_iff]
  constructor
  · rintro ⟨-, ⟨row, hrow, rfl⟩, hy⟩
    obtain ⟨x, m, hx, hm, rfl⟩ := List.getElem?_zipWith_eq_some.mp hy
    exact ⟨x, m, ⟨row, hrow, hx⟩, hm, rfl⟩
  · rintro ⟨x, m, ⟨row, hrow, hx⟩, hm, rfl⟩
    exact ⟨_, ⟨row, hrow, rfl⟩, List.getElem?_zipWith_eq_some.mpr ⟨x, m, hx, hm, rfl⟩⟩

theorem isSquare_lowerCols (hg : g.IsSquare n) : (lowerCols g).IsSquare n := by
  constructor
  · simp [lowerCols, hg.1]
  · intro row hrow
    obtain ⟨row', hrow', rfl⟩ := List.mem_map.mp hrow
    simp [hg.2 row' hrow', length_colMinima hg]

theorem isSquare_reduce (hg : g.IsSquare n) : (ofGrid g).reduce.1.values.IsSquare n :=
  isSquare_lowerCols (isSquare_lowerRows hg)

end CostMatrix

end Shape

variable {α : Type} [LinearOrder α] [Scalar α] [LawfulScalar α]
variable {n i j : Nat} {g : Grid α}

namespace Grid

theorem getElem?_foldl_lower {row : List α} {rows : List (List α)}
    (h : ∀ r ∈ row :: rows, j < r.length) :
    (rows.foldl (List.zipWith Scalar.lower) row)[j]? = (column (row :: rows) j).min? := by
  induction rows generalizing row with
  | nil =>
    rw [column_cons _ (h row List.mem_cons_self)]
    exact List.getElem?_eq_getElem _
  | cons next rows ih =>
    have hr := h row List.mem_cons_self
    have hn := h next (by simp)
    have hlow : j < (List.zipWith Scalar.lower row next).length := by
      rw [List.length_zipWith]
      omega
    rw [List.foldl_cons, ih]
    · rw [column_cons _ hlow, column_cons _ hr, column_cons _ hn]
      simp only [List.getElem_zipWith, lower_eq, List.min?_cons', List.foldl_cons]
    · intro r hmem
      rcases List.mem_cons.mp hmem with rfl | hmem
      · exact hlow
      · exact h r (by simp [hmem])

/-- The entries of the column minima are the least values of the columns. -/
theorem colMinima_spec {m : α} (hg : g.IsSquare n) (h : (colMinima g)[j]? = some m) :
    m ∈ g.column j ∧ ∀ x ∈ g.column j, m ≤ x := by
  have hj : j < n := by
    rw [← length_colMinima hg]
    exact (List.getElem?_eq_some_iff.mp h).1
  cases g with
  | nil => simp [colMinima] at h
  | cons row rows =>
    rw [colMinima, getElem?_foldl_lower fun r hr => by rw [hg.2 r hr]; exact hj] at h
    exact List.min?_eq_some_iff.mp h

theorem exists_colMinimum (hg : g.IsSquare n) (hj : j < n) :
    ∃ m, (colMinima g)[j]? = some m ∧ m ∈ g.column j ∧ ∀ x ∈ g.column j, m ≤ x := by
  have hlen : j < (colMinima g).length := by rw [length_colMinima hg]; exact hj
  have hm := List.getElem?_eq_getElem hlen
  exact ⟨_, hm, colMinima_spec hg hm⟩

end Grid

namespace CostMatrix

open Grid

theorem lowerRows_nonneg {y : α} (h : (lowerRows g).cell? i j = some y) : 0 ≤ y := by
  obtain ⟨row, x, -, hx, rfl⟩ := cell?_lowerRows_eq_some_iff.mp h
  exact LawfulScalar.sub_nonneg (Scalar.least_le (List.mem_of_getElem? hx))

theorem exists_zero_lowerRows (hg : g.IsSquare n) (hi : i < n) :
    ∃ j, (lowerRows g).cell? i j = some 0 := by
  obtain ⟨row, hrow, hlen⟩ := hg.exists_row hi
  have hne : row ≠ [] := List.ne_nil_of_length_pos (by omega)
  obtain ⟨j, hj⟩ := List.mem_iff_getElem?.mp (Scalar.least_mem hne)
  exact ⟨j, cell?_lowerRows_eq_some_iff.mpr ⟨row, _, hrow, hj, LawfulScalar.sub_self _⟩⟩

theorem lowerCols_nonneg {y : α} (hg : g.IsSquare n) (h : (lowerCols g).cell? i j = some y) :
    0 ≤ y := by
  obtain ⟨x, m, hx, hm, rfl⟩ := cell?_lowerCols_eq_some_iff.mp h
  exact LawfulScalar.sub_nonneg ((colMinima_spec hg hm).2 x (mem_column_iff.mpr ⟨i, hx⟩))

theorem exists_zero_lowerCols (hg : g.IsSquare n) (hj : j < n) :
    ∃ i, (lowerCols g).cell? i j = some 0 := by
  obtain ⟨m, hm, hmem, -⟩ := exists_colMinimum hg hj
  obtain ⟨i, hi⟩ := mem_column_iff.mp hmem
  exact ⟨i, cell?_lowerCols_eq_some_iff.mpr ⟨m, m, hi, hm, LawfulScalar.sub_self m⟩⟩

/-- A zero of a grid without negative values is its column's least value, so it stays. -/
theorem lowerCols_zero (hg : g.IsSquare n)
    (hn : ∀ i j x, g.cell? i j = some x → 0 ≤ x) (h : g.cell? i j = some 0) :
    (lowerCols g).cell? i j = some 0 := by
  obtain ⟨m, hm, hmem, hle⟩ := exists_colMinimum hg (hg.lt_of_cell? h).2
  obtain ⟨i', hi'⟩ := mem_column_iff.mp hmem
  have hz : m = 0 := le_antisymm (hle 0 (mem_column_iff.mpr ⟨i, h⟩)) (hn i' j m hi')
  exact cell?_lowerCols_eq_some_iff.mpr ⟨0, m, h, hm, by rw [hz]; exact LawfulScalar.sub_zero 0⟩

/-! ### Both lowerings together -/

theorem reduce_nonneg {x : α} (hg : g.IsSquare n)
    (h : (ofGrid g).reduce.1.values.cell? i j = some x) : 0 ≤ x :=
  lowerCols_nonneg (isSquare_lowerRows hg) h

theorem exists_zero_reduce_row (hg : g.IsSquare n) (hi : i < n) :
    ∃ j, (ofGrid g).reduce.1.values.cell? i j = some 0 := by
  obtain ⟨j, hj⟩ := exists_zero_lowerRows hg hi
  exact ⟨j, lowerCols_zero (isSquare_lowerRows hg) (fun _ _ _ => lowerRows_nonneg) hj⟩

theorem exists_zero_reduce_col (hg : g.IsSquare n) (hj : j < n) :
    ∃ i, (ofGrid g).reduce.1.values.cell? i j = some 0 :=
  exists_zero_lowerCols (isSquare_lowerRows hg) hj

end CostMatrix

/-! ### The normal form -/

open CostMatrix

/-- Whether no value is negative and every row and every column holds a zero. -/
structure Grid.IsReduced (n : Nat) (g : Grid α) : Prop where
  square : g.IsSquare n
  nonneg : ∀ i j x, g.cell? i j = some x → 0 ≤ x
  row_zero : ∀ i < n, ∃ j, g.cell? i j = some 0
  col_zero : ∀ j < n, ∃ i, g.cell? i j = some 0

theorem CostMatrix.isReduced_reduce (hg : g.IsSquare n) :
    (ofGrid g).reduce.1.values.IsReduced n where
  square := isSquare_reduce hg
  nonneg _ _ _ := reduce_nonneg hg
  row_zero _ := exists_zero_reduce_row hg
  col_zero _ := exists_zero_reduce_col hg

namespace Grid.IsReduced

variable (h : g.IsReduced n)
include h

theorem rowMinima_eq_zero : ∀ x ∈ rowMinima g, x = 0 := by
  intro x hx
  obtain ⟨row, hrow, rfl⟩ := List.mem_map.mp hx
  obtain ⟨i, hi⟩ := List.mem_iff_getElem?.mp hrow
  have hlt : i < n := by
    rw [← h.square.1]
    exact (List.getElem?_eq_some_iff.mp hi).1
  obtain ⟨j, hzero⟩ := h.row_zero i hlt
  obtain ⟨row', hrow', hj⟩ := cell?_eq_some_iff.mp hzero
  obtain rfl : row = row' := Option.some.inj (hi.symm.trans hrow')
  have hmem : (0 : α) ∈ row := List.mem_of_getElem? hj
  -- the least value stands in the row, so it is not negative
  obtain ⟨k, hk⟩ := List.mem_iff_getElem?.mp (Scalar.least_mem (List.ne_nil_of_mem hmem))
  exact le_antisymm (Scalar.least_le hmem) (h.nonneg i k _ (cell?_eq_some_iff.mpr ⟨row, hi, hk⟩))

theorem colMinima_eq_zero : ∀ x ∈ colMinima g, x = 0 := by
  intro x hx
  obtain ⟨j, hj⟩ := List.mem_iff_getElem?.mp hx
  obtain ⟨hmem, hle⟩ := colMinima_spec h.square hj
  have hlt : j < n := by
    rw [← length_colMinima h.square]
    exact (List.getElem?_eq_some_iff.mp hj).1
  obtain ⟨i, hzero⟩ := h.col_zero j hlt
  obtain ⟨k, hk⟩ := mem_column_iff.mp hmem
  exact le_antisymm (hle 0 (mem_column_iff.mpr ⟨i, hzero⟩)) (h.nonneg k j x hk)

theorem lowerRows_eq_self : lowerRows g = g := by
  have hrow : ∀ row ∈ g, row.map (· - Scalar.least row) = row := by
    intro row hrow
    rw [h.rowMinima_eq_zero _ (List.mem_map_of_mem hrow)]
    simp only [LawfulScalar.sub_zero, List.map_id']
  rw [lowerRows, List.map_congr_left hrow, List.map_id']

theorem lowerCols_eq_self : lowerCols g = g := by
  have hminima : colMinima g = List.replicate n 0 :=
    List.eq_replicate_iff.mpr ⟨length_colMinima h.square, h.colMinima_eq_zero⟩
  have hrow : ∀ row ∈ g, List.zipWith (· - ·) row (colMinima g) = row := by
    intro row hrow
    rw [hminima]
    refine List.ext_getElem (by simp [h.square.2 row hrow]) fun j _ _ => ?_
    rw [List.getElem_zipWith, List.getElem_replicate, LawfulScalar.sub_zero]
  rw [lowerCols, List.map_congr_left hrow, List.map_id']

/-- Reduced values are left as they are. -/
theorem reduce_values : (ofGrid g).reduce.1.values = g := by
  have hvalues : lowerCols (lowerRows g) = g := by
    rw [h.lowerRows_eq_self, h.lowerCols_eq_self]
  exact hvalues

end Grid.IsReduced

end OptimalAssignment
