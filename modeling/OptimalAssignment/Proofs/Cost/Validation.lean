import Mathlib
import OptimalAssignment.Proofs.Cost.Table
import OptimalAssignment.Proofs.Cost.TableReading

/-!
Validation. Rows are accepted just if they make a square with at least one row, and its costs are
finite where that is asked for. A square that is not finite is rejected for that, and all else for
its shape: the first row of a wrong length is named. Arrays of the same numbers fare the same.
-/
namespace OptimalAssignment

namespace Table

variable {α : Type} {lists : List (List α)} {row : List α} {size start width i : ℕ}

/-- Whether rows make a square with at least one row. -/
def IsProper (lists : List (List α)) : Prop :=
  ∃ n, 1 ≤ n ∧ Grid.IsSquare n lists

theorem not_isProper_nil : ¬ IsProper ([] : List (List α)) := by
  rintro ⟨n, hn, hcount, -⟩
  rw [List.length_nil] at hcount
  omega

/-- Whether a row is the first one whose length is not a given one. -/
structure IsFirstWrong (size : ℕ) (lists : List (List α)) (i : ℕ) (row : List α) : Prop where
  found : lists[i]? = some row
  wrong : row.length ≠ size
  first : ∀ j < i, ∀ other, lists[j]? = some other → other.length = size

theorem IsFirstWrong.not_isProper (h : IsFirstWrong lists.length lists i row) :
    ¬ IsProper lists := by
  rintro ⟨n, -, hcount, hrows⟩
  exact h.wrong ((hrows row (List.mem_of_getElem? h.found)).trans hcount.symm)

theorem isFirstWrong_cons {other : List α} (hother : other.length = size)
    (h : IsFirstWrong size lists i row) : IsFirstWrong size (other :: lists) (i + 1) row where
  found := h.found
  wrong := h.wrong
  first j hj row' hrow' := by
    cases j with
    | zero =>
      obtain rfl : other = row' := by simpa using hrow'
      exact hother
    | succ j => exact h.first j (by omega) row' hrow'

/-- A search for a row of a wrong length finds the first one. -/
theorem wrongRow?_cases (size start : ℕ) (lists : List (List α)) :
    (∀ row ∈ lists, row.length = size) ∨
    ∃ i row, IsFirstWrong size lists i row ∧
      wrongRow? size start (lists.map fun row => some row.length) =
        some (.rowLength (start + i) row.length size) := by
  induction lists generalizing start with
  | nil => exact .inl (by simp)
  | cons row lists ih =>
    by_cases hrow : row.length = size
    · rcases ih (start + 1) with hall | ⟨i, other, hfirst, hfound⟩
      · exact .inl (List.forall_mem_cons.mpr ⟨hrow, hall⟩)
      · refine .inr ⟨i + 1, other, isFirstWrong_cons hrow hfirst, ?_⟩
        rw [List.map_cons, wrongRow?, if_pos hrow, hfound, Nat.add_right_comm, Nat.add_assoc]
    · refine .inr ⟨0, row, ⟨rfl, hrow, fun j hj => absurd hj (by omega)⟩, ?_⟩
      rw [List.map_cons, wrongRow?, if_neg hrow, Nat.add_zero]

/-- Axes on which the numbers of rows that are equally long can stand. -/
inductive IsAxes (count width : ℕ) : List ℕ → Prop
  | plane : IsAxes count width [count, width]
  | line (hnone : count = 0) : IsAxes count width [0]

theorem isAxes_rowAxes : IsAxes size width (rowAxes size width) := by
  rw [rowAxes]
  split_ifs with h
  · exact .line h
  · exact .plane

/-- The array of a square holds it. -/
theorem holds_array {axes : List ℕ} (hwidth : ∀ row ∈ lists, row.length = width)
    (haxes : IsAxes lists.length width axes) (h : IsProper lists) :
    (Table.array axes lists.flatten).Holds lists := by
  obtain ⟨n, hn, hcount, hrows⟩ := h
  cases haxes with
  | line hnone => omega
  | plane =>
    obtain ⟨row, hrow⟩ := List.exists_mem_of_length_pos (by omega : 0 < lists.length)
    have hsame : width = lists.length := by rw [← hwidth row hrow, hrows row hrow, hcount]
    rw [hsame]
    exact .array

section Accept

variable [Scalar α] {finite : Bool}

/-- What comes of validating rows. -/
inductive Verdict (finite : Bool) (lists : List (List α)) : Except Rejection (Grid α) → Prop
  | accepted (hproper : IsProper lists)
    (hfinite : finite = true → ∀ row ∈ lists, ∀ x ∈ row, Scalar.isFinite x = true) :
    Verdict finite lists (.ok lists)
  | notFinite (hproper : IsProper lists) (hfinite : finite = true)
    (hentry : ∃ row ∈ lists, ∃ x ∈ row, Scalar.isFinite x = false) :
    Verdict finite lists (.error .notFinite)
  | empty (hnone : lists = []) : Verdict finite lists (.error .empty)
  | rowLength {i : ℕ} {row : List α} (hfirst : IsFirstWrong lists.length lists i row) :
    Verdict finite lists (.error (.rowLength i row.length lists.length))

theorem checkFinite_eq_notFinite (hfinite : finite = true)
    (hentry : ∃ row ∈ lists, ∃ x ∈ row, Scalar.isFinite x = false) :
    checkFinite finite lists = .error .notFinite := by
  obtain ⟨row, hrow, x, hx, hnot⟩ := hentry
  have hall : lists.all (·.all Scalar.isFinite) = false := by
    rw [List.all_eq_false]
    refine ⟨row, hrow, ?_⟩
    simpa using ⟨x, hx, hnot⟩
  rw [checkFinite, hall, hfinite]
  rfl

theorem accept_of_isProper {table : Table α} (ht : table.Holds lists) (h : IsProper lists) :
    table.accept finite = checkFinite finite lists := by
  obtain ⟨n, hn, hsquare⟩ := h
  exact accept_eq_checkFinite ht hn hsquare

theorem verdict_checkFinite (h : IsProper lists) :
    Verdict finite lists (checkFinite finite lists) := by
  by_cases hfinite : finite = true → ∀ row ∈ lists, ∀ x ∈ row, Scalar.isFinite x = true
  · rw [checkFinite_eq hfinite]
    exact .accepted h hfinite
  · push Not at hfinite
    obtain ⟨hasked, row, hrow, x, hx, hnot⟩ := hfinite
    have hentry : ∃ row ∈ lists, ∃ x ∈ row, Scalar.isFinite x = false :=
      ⟨row, hrow, x, hx, by simpa using hnot⟩
    rw [checkFinite_eq_notFinite hasked hentry]
    exact .notFinite h hasked hentry

theorem verdict_accept_rows (finite : Bool) (lists : List (List α)) :
    Verdict finite lists ((Table.rows lists).accept finite) := by
  rcases eq_or_ne lists [] with rfl | hne
  · exact .empty rfl
  rcases wrongRow?_cases lists.length 0 lists with hall | ⟨i, row, hfirst, hwrong⟩
  · have hproper : IsProper lists := ⟨_, List.length_pos_iff.mpr hne, rfl, hall⟩
    rw [accept_of_isProper .rows hproper]
    exact verdict_checkFinite hproper
  · have hlengths : checkLengths (lists.map fun row => some row.length) =
        .error (.rowLength i row.length lists.length) := by
      rw [checkLengths, List.length_map, hwrong, Nat.zero_add]
      simp [hne]
    simp only [accept, hlengths]
    exact .rowLength hfirst

/-! ### What a verdict says -/

theorem Verdict.eq_ok_iff {out : Except Rejection (Grid α)} {g : Grid α}
    (h : Verdict finite lists out) : out = .ok g ↔ g = lists ∧ IsProper lists ∧
      (finite = true → ∀ row ∈ lists, ∀ x ∈ row, Scalar.isFinite x = true) := by
  cases h with
  | accepted hproper hfinite =>
    constructor
    · intro heq
      exact ⟨(Except.ok.inj heq).symm, hproper, hfinite⟩
    · rintro ⟨rfl, -⟩
      rfl
  | notFinite hproper hasked hentry =>
    obtain ⟨row, hrow, x, hx, hnot⟩ := hentry
    refine iff_of_false nofun fun ⟨_, _, hfinite⟩ => ?_
    simp [hfinite hasked row hrow x hx] at hnot
  | empty hnone =>
    subst hnone
    exact iff_of_false nofun fun ⟨_, hproper, _⟩ => not_isProper_nil hproper
  | rowLength hfirst => exact iff_of_false nofun fun ⟨_, hproper, _⟩ => hfirst.not_isProper hproper

theorem Verdict.eq_notFinite_iff {out : Except Rejection (Grid α)} (h : Verdict finite lists out) :
    out = .error .notFinite ↔ IsProper lists ∧ finite = true ∧
      ∃ row ∈ lists, ∃ x ∈ row, Scalar.isFinite x = false := by
  cases h with
  | accepted hproper hfinite =>
    refine iff_of_false nofun fun ⟨_, hasked, row, hrow, x, hx, hnot⟩ => ?_
    simp [hfinite hasked row hrow x hx] at hnot
  | notFinite hproper hasked hentry => exact iff_of_true rfl ⟨hproper, hasked, hentry⟩
  | empty hnone =>
    subst hnone
    exact iff_of_false nofun fun ⟨hproper, _⟩ => not_isProper_nil hproper
  | rowLength hfirst => exact iff_of_false nofun fun ⟨hproper, _⟩ => hfirst.not_isProper hproper

theorem Verdict.of_not_isProper {out : Except Rejection (Grid α)} (h : Verdict finite lists out)
    (hnot : ¬ IsProper lists) : lists = [] ∧ out = .error .empty ∨
      ∃ i row, IsFirstWrong lists.length lists i row ∧
        out = .error (.rowLength i row.length lists.length) := by
  cases h with
  | accepted hproper _ => exact absurd hproper hnot
  | notFinite hproper _ _ => exact absurd hproper hnot
  | empty hnone => exact .inl ⟨hnone, rfl⟩
  | rowLength hfirst => exact .inr ⟨_, _, hfirst, rfl⟩

end Accept

/-! ### Arrays of the same numbers -/

/-- Whether two outcomes are the same: the same grid, or rejections for the same kind of reason. -/
inductive SameOutcome : Except Rejection (Grid α) → Except Rejection (Grid α) → Prop
  | accepted (g : Grid α) : SameOutcome (.ok g) (.ok g)
  | notFinite : SameOutcome (.error .notFinite) (.error .notFinite)
  | shape {r s : Rejection} (hr : r.isShape = true) (hs : s.isShape = true) :
    SameOutcome (.error r) (.error s)

theorem SameOutcome.symm {out other : Except Rejection (Grid α)} (h : SameOutcome out other) :
    SameOutcome other out := by
  cases h with
  | accepted g => exact .accepted g
  | notFinite => exact .notFinite
  | shape hr hs => exact .shape hs hr

theorem SameOutcome.trans {out other third : Except Rejection (Grid α)} (h : SameOutcome out other)
    (h' : SameOutcome other third) : SameOutcome out third := by
  cases h with
  | accepted g => exact h'
  | notFinite => exact h'
  | shape hr hs =>
    cases h' with
    | notFinite => contradiction
    | shape _ ht => exact .shape hr ht

variable [Scalar α] {finite : Bool}

/-- A plane is a square with at least one row, or it is rejected for its shape. -/
theorem checkShape_cases (height width : ℕ) : height = width ∧ 1 ≤ height ∨
    ∃ r : Rejection, checkShape [height, width] = .error r ∧ r.isShape = true := by
  rw [checkShape]
  split_ifs with hempty hother
  · exact .inr ⟨_, rfl, rfl⟩
  · exact .inr ⟨_, rfl, rfl⟩
  · exact .inl ⟨by simpa using hother, by omega⟩

theorem accept_of_checkShape {shape : List ℕ} {cells : List α} {r : Rejection}
    (h : checkShape shape = .error r) : (Table.array shape cells).accept finite = .error r := by
  simp only [accept, h]
  rfl

theorem Verdict.sameOutcome_self {out : Except Rejection (Grid α)}
    (h : Verdict finite lists out) : SameOutcome out out := by
  cases h with
  | accepted => exact .accepted _
  | notFinite => exact .notFinite
  | empty => exact .shape rfl rfl
  | rowLength => exact .shape rfl rfl

theorem exists_isShape_rows (finite : Bool) (hnot : ¬ IsProper lists) :
    ∃ r : Rejection, (Table.rows lists).accept finite = .error r ∧ r.isShape = true := by
  rcases (verdict_accept_rows finite lists).of_not_isProper hnot with ⟨-, h⟩ | ⟨i, row, -, h⟩
  · exact ⟨_, h, rfl⟩
  · exact ⟨_, h, rfl⟩

section Array

variable {axes : List ℕ} (hwidth : ∀ row ∈ lists, row.length = width)
  (haxes : IsAxes lists.length width axes)
include hwidth haxes

theorem exists_isShape_array (finite : Bool) (hnot : ¬ IsProper lists) :
    ∃ r : Rejection, (Table.array axes lists.flatten).accept finite = .error r ∧
      r.isShape = true := by
  cases haxes with
  | line => exact ⟨.notPlane [0], accept_of_checkShape rfl, rfl⟩
  | plane =>
    rcases checkShape_cases lists.length width with ⟨hsquare, hpos⟩ | ⟨r, hr, hshape⟩
    · exact absurd ⟨lists.length, hpos, rfl, fun row hrow => (hwidth row hrow).trans hsquare.symm⟩
        hnot
    · exact ⟨r, accept_of_checkShape hr, hshape⟩

/-- The array of rows that are equally long fares as the rows do. -/
theorem sameOutcome_array : SameOutcome ((Table.array axes lists.flatten).accept finite)
    ((Table.rows lists).accept finite) := by
  by_cases hproper : IsProper lists
  · rw [accept_of_isProper (holds_array hwidth haxes hproper) hproper,
      accept_of_isProper .rows hproper]
    exact (verdict_checkFinite hproper).sameOutcome_self
  · obtain ⟨r, hr, hshape⟩ := exists_isShape_array hwidth haxes finite hproper
    obtain ⟨s, hs, hshape'⟩ := exists_isShape_rows finite hproper
    rw [hr, hs]
    exact .shape hshape hshape'

end Array

section Reading

variable {kind : Element} {lenient finite : Bool} {rows : List Value} {lists : List (List Float)}
  {shape : Option (List ℤ)} {width : ℕ}

theorem ofValue_rows (hread : rows.mapM numbers? = some lists) :
    ofValue (.list rows) = .rows lists := by
  have hparts : (Value.list rows).parts? = some rows := rfl
  simp only [ofValue, hparts, ofRows, hread]

/-- An array built from rows of numbers, in either manner, fares as the rows do. -/
theorem sameOutcome_ofArray (finite : Bool) (hread : rows.mapM numbers? = some lists)
    (hwidth : ∀ row ∈ lists, row.length = width)
    (hshape : shape ∈ [none, some [(lists.length : ℤ), (width : ℤ)]])
    (hkeep : KeepsNumbers lenient kind rows) :
    SameOutcome ((ofArray lenient kind shape (.list rows)).accept finite)
      ((ofValue (.list rows)).accept finite) := by
  rw [ofValue_rows hread]
  obtain ⟨cells, rfl, hcells⟩ := exists_cells hread
  simp only [List.mem_cons, List.not_mem_nil, or_false] at hshape
  rcases hshape with rfl | rfl
  · rw [ofArray_rows hcells hwidth hkeep]
    exact sameOutcome_array hwidth isAxes_rowAxes
  · rw [ofArray_rows_reshaped hcells hwidth hkeep]
    exact sameOutcome_array hwidth .plane

end Reading

end Table

end OptimalAssignment
