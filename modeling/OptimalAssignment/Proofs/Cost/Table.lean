import OptimalAssignment.Cost.Table
import OptimalAssignment.Proofs.Cost.Cell

/-!
Accepted tables. A square grid with at least one row is accepted, be it handed in as rows or as an
array, and comes out as it is.
-/
namespace OptimalAssignment.Table

variable {α : Type} {n : Nat} {g : Grid α}

/-- The tables that hold a grid: the rows of it, or its cells in an array. -/
inductive Holds (g : Grid α) : Table α → Prop
  | rows : Holds g (.rows g)
  | array : Holds g (.array [g.length, g.length] g.flatten)

theorem wrongRow?_eq_none {lengths : List (Option Nat)} (h : ∀ k ∈ lengths, k = some n) (i : Nat) :
    wrongRow? n i lengths = none := by
  induction lengths generalizing i with
  | nil => rfl
  | cons k rest ih =>
    obtain rfl := h k List.mem_cons_self
    rw [wrongRow?, if_pos rfl]
    exact ih (fun k hk => h k (List.mem_cons_of_mem _ hk)) (i + 1)

theorem checkLengths_eq (hn : 1 ≤ n) (hg : g.IsSquare n) :
    checkLengths (List.map (fun row => some row.length) g) = .ok () := by
  have hall : ∀ k ∈ List.map (fun row : List α => some row.length) g, k = some n := by
    intro k hk
    obtain ⟨row, hrow, rfl⟩ := List.mem_map.mp hk
    rw [hg.2 row hrow]
  have hne : (List.map (fun row : List α => some row.length) g).isEmpty = false := by
    rw [List.isEmpty_eq_false_iff_exists_mem]
    obtain ⟨row, hrow, -⟩ := hg.exists_row hn
    exact ⟨some row.length, List.mem_map_of_mem (List.mem_of_getElem? hrow)⟩
  rw [checkLengths, hne, List.length_map, hg.1, wrongRow?_eq_none hall]
  rfl

/-- Rows of one length are cut out of their cells again, as many of them as are wanted. -/
theorem pieces_flatten_take {count : Nat} (h : ∀ row ∈ g, row.length = n)
    (hcount : count ≤ g.length) : pieces n count g.flatten = g.take count := by
  induction count generalizing g with
  | zero => rfl
  | succ count ih =>
    cases g with
    | nil => simp at hcount
    | cons row rows =>
      obtain ⟨hlen, hrows⟩ := List.forall_mem_cons.mp h
      rw [pieces, List.flatten_cons, ← hlen, List.take_left, List.drop_left, hlen,
        ih hrows (by simpa using hcount), List.take_succ_cons]

theorem pieces_flatten (h : ∀ row ∈ g, row.length = n) : pieces n g.length g.flatten = g := by
  rw [pieces_flatten_take h le_rfl, List.take_length]

variable [Scalar α] {table : Table α} {required : Bool}

theorem checkFinite_eq (hf : required = true → ∀ row ∈ g, ∀ x ∈ row, Scalar.isFinite x = true) :
    checkFinite required g = .ok g := by
  cases required with
  | false => rfl
  | true =>
    have hall : g.all (·.all Scalar.isFinite) = true := by
      simpa only [List.all_eq_true] using hf rfl
    rw [checkFinite, hall]
    rfl

/-- Of a table that holds a square grid only the costs are left to be looked at. -/
theorem accept_eq_checkFinite (ht : table.Holds g) (hn : 1 ≤ n) (hg : g.IsSquare n) :
    table.accept required = checkFinite required g := by
  cases ht with
  | rows =>
    simp only [accept, checkLengths_eq hn hg]
    rfl
  | array =>
    have hshape : checkShape [g.length, g.length] = .ok () := by
      rw [checkShape, hg.1, if_neg (by omega), if_neg (by simp)]
    have hpieces : pieces g.length g.length g.flatten = g :=
      pieces_flatten fun row hr => (hg.2 row hr).trans hg.1.symm
    simp only [accept, hshape, List.headD_cons, hpieces]
    rfl

/-- A table that holds a square grid is accepted as that grid. -/
theorem accept_eq (ht : table.Holds g) (hn : 1 ≤ n) (hg : g.IsSquare n)
    (hf : required = true → ∀ row ∈ g, ∀ x ∈ row, Scalar.isFinite x = true) :
    table.accept required = .ok g := by
  rw [accept_eq_checkFinite ht hn hg, checkFinite_eq hf]

end OptimalAssignment.Table
