import OptimalAssignment.Coverage
import OptimalAssignment.Proofs.Matching.Pairing

/-!
Covered lines. Flags are read as two predicates, on rows and on columns; each operation on flags
succeeds on a line of the grid and is described by what it does to the predicates.
-/
namespace OptimalAssignment.Coverage

/-- Whether a row is covered. -/
def CoversRow (c : Coverage) (row : Nat) : Prop :=
  c.rows[row]? = some true

/-- Whether a column is covered. -/
def CoversCol (c : Coverage) (col : Nat) : Prop :=
  c.cols[col]? = some true

instance (c : Coverage) (row : Nat) : Decidable (c.CoversRow row) :=
  inferInstanceAs (Decidable (_ = _))

instance (c : Coverage) (col : Nat) : Decidable (c.CoversCol col) :=
  inferInstanceAs (Decidable (_ = _))

/-- One flag for each of `n` rows and each of `n` columns. -/
structure Fits (n : Nat) (c : Coverage) : Prop where
  size_eq : c.size = n
  length_rows : c.rows.length = n
  length_cols : c.cols.length = n

variable {n row col : Nat} {c : Coverage} {flags : List Bool} {i j : Nat}

theorem getElem?_eq_decide (h : i < flags.length) :
    flags[i]? = some (decide (flags[i]? = some true)) := by
  rw [List.getElem?_eq_getElem h]
  simp

theorem getElem?_set_true (h : i < flags.length) :
    (flags.set i true)[j]? = some true ↔ j = i ∨ flags[j]? = some true := by
  by_cases hj : j = i
  · subst hj
    simp [h]
  · simp [List.getElem?_set_ne (Ne.symm hj), hj]

theorem getElem?_set_false (h : i < flags.length) :
    (flags.set i false)[j]? = some true ↔ j ≠ i ∧ flags[j]? = some true := by
  by_cases hj : j = i
  · subst hj
    simp [h]
  · simp [List.getElem?_set_ne (Ne.symm hj), hj]

theorem all_id_iff : flags.all id = true ↔ ∀ i < flags.length, flags[i]? = some true := by
  simp only [List.all_eq_true, id_eq]
  constructor
  · intro hall i hi
    rw [List.getElem?_eq_getElem hi, hall _ (List.getElem_mem hi)]
  · intro hall flag hmem
    obtain ⟨i, hi⟩ := List.mem_iff_getElem?.mp hmem
    rw [hall i (List.getElem?_eq_some_iff.mp hi).1] at hi
    exact (Option.some.inj hi).symm

theorem fits_empty (n : Nat) : (empty n).Fits n :=
  ⟨rfl, List.length_replicate, List.length_replicate⟩

namespace Fits

theorem lt_of_coversRow (h : c.Fits n) (hr : c.CoversRow row) : row < n := by
  rw [← h.length_rows]
  exact (List.getElem?_eq_some_iff.mp hr).1

theorem lt_of_coversCol (h : c.Fits n) (hc : c.CoversCol col) : col < n := by
  rw [← h.length_cols]
  exact (List.getElem?_eq_some_iff.mp hc).1

theorem rows_getElem? (h : c.Fits n) (hr : row < n) :
    c.rows[row]? = some (decide (c.CoversRow row)) :=
  getElem?_eq_decide (by rw [h.length_rows]; exact hr)

theorem cols_getElem? (h : c.Fits n) (hc : col < n) :
    c.cols[col]? = some (decide (c.CoversCol col)) :=
  getElem?_eq_decide (by rw [h.length_cols]; exact hc)

theorem all_rows_iff (h : c.Fits n) : c.rows.all id = true ↔ ∀ row < n, c.CoversRow row := by
  rw [all_id_iff, h.length_rows]
  rfl

theorem all_cols_iff (h : c.Fits n) : c.cols.all id = true ↔ ∀ col < n, c.CoversCol col := by
  rw [all_id_iff, h.length_cols]
  rfl

theorem isOptimal_iff (h : c.Fits n) : c.isOptimal = true ↔ ∀ col < n, c.CoversCol col := by
  rw [isOptimal, numCoveredCols, beq_iff_eq, h.size_eq, ← h.length_cols, List.count_eq_length]
  constructor
  · intro hall col hc
    rw [CoversCol, List.getElem?_eq_getElem hc, hall _ (List.getElem_mem hc)]
  · intro hall flag hmem
    obtain ⟨col, hc⟩ := List.mem_iff_getElem?.mp hmem
    have := hall col (List.getElem?_eq_some_iff.mp hc).1
    rw [CoversCol, hc] at this
    exact (Option.some.inj this).symm

end Fits

/-! ### Operations -/

/-- The flags with the cover moved from a column to a row. -/
def exchanged (row col : Nat) (c : Coverage) : Coverage :=
  { c with rows := c.rows.set row true, cols := c.cols.set col false }

/-- The flags that cover exactly the columns holding a selected zero. -/
def renewed (m : Matching Nat) (c : Coverage) : Coverage :=
  { c with rows := c.rows.map fun _ => false, cols := m.rowOfCol.map Option.isSome }

namespace Fits

theorem coverRow_eq (h : c.Fits n) (hr : row < n) :
    c.coverRow row = .ok { c with rows := c.rows.set row true } := by
  simp [coverRow, Position.set?_nat, h.length_rows, hr]

theorem uncoverCol_eq (h : c.Fits n) (hc : col < n) :
    c.uncoverCol col = .ok { c with cols := c.cols.set col false } := by
  simp [uncoverCol, Position.set?_nat, h.length_cols, hc]

theorem exchanged (h : c.Fits n) (row col : Nat) : (c.exchanged row col).Fits n where
  size_eq := h.size_eq
  length_rows := by simp [Coverage.exchanged, h.length_rows]
  length_cols := by simp [Coverage.exchanged, h.length_cols]

theorem coversRow_exchanged (h : c.Fits n) (hr : row < n) (i : Nat) :
    (c.exchanged row col).CoversRow i ↔ i = row ∨ c.CoversRow i :=
  getElem?_set_true (by rw [h.length_rows]; exact hr)

theorem coversCol_exchanged (h : c.Fits n) (hc : col < n) (j : Nat) :
    (c.exchanged row col).CoversCol j ↔ j ≠ col ∧ c.CoversCol j :=
  getElem?_set_false (by rw [h.length_cols]; exact hc)

theorem numCoveredRows_exchanged (h : c.Fits n) (hr : row < n) (hopen : ¬ c.CoversRow row) :
    (c.exchanged row col).numCoveredRows = c.numCoveredRows + 1 := by
  have hlen : row < c.rows.length := by rw [h.length_rows]; exact hr
  have hflag : c.rows[row] = false := by
    rw [← Bool.not_eq_true]
    exact fun he => hopen (by rw [CoversRow, List.getElem?_eq_getElem hlen, he])
  simp [numCoveredRows, Coverage.exchanged, List.count_set hlen, hflag]

variable {m : Matching Nat}

theorem coverSelected_eq (h : c.Fits n) (hm : m.Paired n) :
    c.coverSelected m = .ok (c.renewed m) := by
  have hlen : ¬ m.rowOfCol.length < c.size := by rw [hm.length_rows, h.size_eq]; exact lt_irrefl n
  rw [coverSelected, if_neg hlen, renewed, h.size_eq, ← hm.length_rows, List.take_length]

theorem renewed (h : c.Fits n) (hm : m.Paired n) : (c.renewed m).Fits n where
  size_eq := h.size_eq
  length_rows := by simp [Coverage.renewed, h.length_rows]
  length_cols := by simp [Coverage.renewed, hm.length_rows]

end Fits

@[simp] theorem not_coversRow_renewed (c : Coverage) (m : Matching Nat) (row : Nat) :
    ¬ (c.renewed m).CoversRow row := by
  simp only [CoversRow, renewed, List.getElem?_map]
  cases c.rows[row]? <;> simp

@[simp] theorem numCoveredRows_renewed (c : Coverage) (m : Matching Nat) :
    (c.renewed m).numCoveredRows = 0 := by
  rw [numCoveredRows, List.count_eq_zero]
  simp [renewed]

@[simp] theorem coversCol_renewed (c : Coverage) (m : Matching Nat) (col : Nat) :
    (c.renewed m).CoversCol col ↔ (m.row? col).isSome := by
  simp only [CoversCol, renewed, List.getElem?_map, Matching.row?, Matching.content]
  cases m.rowOfCol[col]? <;> simp

end OptimalAssignment.Coverage
