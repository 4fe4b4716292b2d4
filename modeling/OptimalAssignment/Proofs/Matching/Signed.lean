import Mathlib
import OptimalAssignment.Matching.AlternatingPath
import OptimalAssignment.Matching.Greedy

/-!
Matchings whose lines are named by natural numbers, seen as matchings whose lines are named by
signed ones. A natural number counts from the start and is never the mark of an empty slot, so every
operation with natural arguments does the same under both names, its faults included.
-/
namespace OptimalAssignment

/-- Slots with signed names. -/
def signedSlots (slots : List (Option Nat)) : List (Option Int) :=
  slots.map (Option.map Nat.cast)

namespace Position

@[simp] theorem index?_natCast (n i : Nat) : index? n (i : Int) = index? n i := by
  have hneg : ¬ (i : Int) < 0 := by omega
  simp only [index?, signedIndex?, hneg, if_false]
  split_ifs <;> first | omega | simp_all

@[simp] theorem slot_natCast (i : Nat) : slot (i : Int) = some (i : Int) :=
  if_neg (by omega)

end Position

namespace Matching

/-! ### Selecting and unselecting as one kind of change -/

section Record

variable {P : Type} [Position P] {m : Matching P} {row col : P}

/-- A matching with one slot of each record of selected zeros written. -/
def record (m : Matching P) (row col : P) (cell cell' : Option P) : Except Fault (Matching P) := do
  return { m with
    colOfRow := ← writeAt m.colOfRow row cell
    rowOfCol := ← writeAt m.rowOfCol col cell' }

theorem select_of_taken (h : m.isTaken row col = .ok true) :
    m.select row col = .error (.lineTaken (Position.toInt row) (Position.toInt col)) := by
  rw [select, h]
  rfl

theorem select_of_free (h : m.isTaken row col = .ok false) :
    m.select row col = m.record row col (Position.slot col) (Position.slot row) := by
  rw [select, h]
  rfl

theorem select_of_error {fault : Fault} (h : m.isTaken row col = .error fault) :
    m.select row col = .error fault := by
  rw [select, h]
  rfl

variable [DecidableEq P]

theorem unselect_of_selected (h : m.selectedCol row = .ok (Position.slot col)) :
    m.unselect row col = m.record row col none none := by
  rw [unselect, h]
  simp only [bind, Except.bind, ne_eq, not_true_eq_false, if_false]
  rfl

theorem unselect_of_other {slot : Option P} (h : m.selectedCol row = .ok slot)
    (hne : slot ≠ Position.slot col) :
    m.unselect row col = .error (.notSelected (Position.toInt row) (Position.toInt col)) := by
  rw [unselect, h]
  simp only [bind, Except.bind, ne_eq, hne, not_false_eq_true, if_true]
  rfl

theorem unselect_of_error {fault : Fault} (h : m.selectedCol row = .error fault) :
    m.unselect row col = .error fault := by
  rw [unselect, h]
  rfl

end Record

/-! ### Single slots -/

section Slots

variable (slots : List (Option Nat)) (i : Nat)

theorem slotAt_signed :
    slotAt (signedSlots slots) (i : Int) = (slotAt slots i).map (Option.map Nat.cast) := by
  simp only [slotAt, Position.get?, signedSlots, List.length_map, Position.index?_natCast,
    Position.index?_nat]
  by_cases hi : i < slots.length <;> simp [hi, Except.map]

theorem writeAt_signed (content : Option Nat) :
    writeAt (signedSlots slots) (i : Int) (content.map Nat.cast) =
      (writeAt slots i content).map signedSlots := by
  simp only [writeAt, Position.set?, signedSlots, List.length_map, Position.index?_natCast,
    Position.index?_nat]
  by_cases hi : i < slots.length <;> simp [hi, Except.map, signedSlots, List.map_set]

theorem filled_signed :
    filled (signedSlots slots) = (filled slots).map (Prod.map id Nat.cast) := by
  rw [filled, filled, signedSlots, List.zipIdx_map, List.filterMap_map, List.map_filterMap]
  refine List.filterMap_congr fun ⟨slot, k⟩ _ => ?_
  cases slot <;> rfl

theorem countP_signedSlots :
    (signedSlots slots).countP Option.isSome = slots.countP Option.isSome := by
  rw [signedSlots, List.countP_map]
  exact List.countP_congr fun slot _ => by cases slot <;> simp

theorem signedSlots_replicate (n : Nat) :
    signedSlots (List.replicate n none) = List.replicate n none :=
  List.map_replicate

end Slots

/-! ### Operations on matchings -/

/-- A matching with signed names. -/
def signed (m : Matching Nat) : Matching Int where
  size := m.size
  colOfRow := signedSlots m.colOfRow
  rowOfCol := signedSlots m.rowOfCol
  markOfRow := signedSlots m.markOfRow

theorem signed_empty (n : Nat) : (empty Nat n).signed = empty Int n := by
  simp only [signed, empty, signedSlots_replicate]

variable (m : Matching Nat) (row col : Nat)

theorem selectedCol_signed :
    m.signed.selectedCol (row : Int) = (m.selectedCol row).map (Option.map Nat.cast) :=
  slotAt_signed _ _

theorem selectedRow_signed :
    m.signed.selectedRow (col : Int) = (m.selectedRow col).map (Option.map Nat.cast) :=
  slotAt_signed _ _

theorem preparedCol_signed :
    m.signed.preparedCol (row : Int) = (m.preparedCol row).map (Option.map Nat.cast) :=
  slotAt_signed _ _

theorem isTaken_signed : m.signed.isTaken (row : Int) (col : Int) = m.isTaken row col := by
  rw [isTaken, isTaken, selectedCol_signed, selectedRow_signed]
  cases m.selectedCol row with
  | error fault => rfl
  | ok slot =>
    cases slot with
    | some _ => rfl
    | none =>
      cases m.selectedRow col with
      | error fault => rfl
      | ok slot => cases slot <;> rfl

theorem record_signed (cell cell' : Option Nat) :
    m.signed.record (row : Int) (col : Int) (cell.map Nat.cast) (cell'.map Nat.cast) =
      (m.record row col cell cell').map signed := by
  rw [record, record, signed, writeAt_signed, writeAt_signed]
  cases writeAt m.colOfRow row cell with
  | error fault => rfl
  | ok cols => cases writeAt m.rowOfCol col cell' <;> rfl

theorem select_signed :
    m.signed.select (row : Int) (col : Int) = (m.select row col).map signed := by
  have htaken := isTaken_signed m row col
  cases h : m.isTaken row col with
  | error fault =>
    rw [select_of_error h, select_of_error (htaken.trans h)]
    rfl
  | ok taken =>
    cases taken with
    | true =>
      rw [select_of_taken h, select_of_taken (htaken.trans h)]
      rfl
    | false =>
      rw [select_of_free h, select_of_free (htaken.trans h), Position.slot_natCast,
        Position.slot_natCast]
      exact record_signed m row col (some col) (some row)

theorem unselect_signed :
    m.signed.unselect (row : Int) (col : Int) = (m.unselect row col).map signed := by
  have hslot := selectedCol_signed m row
  cases h : m.selectedCol row with
  | error fault =>
    rw [h] at hslot
    rw [unselect_of_error h, unselect_of_error hslot]
    rfl
  | ok slot =>
    rw [h] at hslot
    by_cases hcol : slot = some col
    · subst hcol
      have hselected : m.signed.selectedCol (row : Int) = .ok (Position.slot (col : Int)) := by
        rw [hslot, Position.slot_natCast]
        rfl
      rw [unselect_of_selected h, unselect_of_selected hselected]
      exact record_signed m row col none none
    · have hother : slot.map Nat.cast ≠ Position.slot (col : Int) := by
        rw [Position.slot_natCast]
        cases slot <;> simp_all
      rw [unselect_of_other h hcol, unselect_of_other hslot hother]
      rfl

theorem prepare_signed :
    m.signed.prepare (row : Int) (col : Int) = (m.prepare row col).map signed := by
  have hwrite := writeAt_signed m.markOfRow row (some col)
  rw [prepare, prepare, Position.slot_natCast, Position.slot_nat]
  rw [Option.map_some] at hwrite
  simp only [signed, hwrite]
  cases writeAt m.markOfRow row (some col) <;> rfl

theorem clearPrepared_signed : m.signed.clearPrepared = m.clearPrepared.signed := by
  simp only [clearPrepared, signed, signedSlots_replicate]

theorem clearSelected_signed (n : Nat) :
    m.signed.clearSelected n = (m.clearSelected n).signed := by
  simp only [clearSelected, signed, signedSlots_replicate]

theorem selectedPairs_signed :
    m.signed.selectedPairs = m.selectedPairs.map (Prod.map id Nat.cast) :=
  filled_signed m.colOfRow

theorem numSelected_signed : m.signed.numSelected = m.numSelected :=
  countP_signedSlots m.colOfRow

end Matching

/-! ### The greedy selection -/

namespace Greedy

open Matching

/-- What a selection leaves behind, with signed names. -/
def Outcome.signed (o : Outcome Nat) : Outcome Int :=
  ⟨o.chosen, o.matching.signed, o.fault⟩

theorem firstFree_signed (flags : List Bool) (slots : List (Option Nat)) :
    firstFree flags (signedSlots slots) = firstFree flags slots := by
  induction slots generalizing flags with
  | nil => cases flags <;> rfl
  | cons slot slots ih =>
    cases flags with
    | nil => rfl
    | cons flag flags =>
      rw [firstFree, ← ih flags]
      cases slot <;> rfl

theorem serve_signed (mask : Grid Bool) (fuel : Nat) (counts : Counts) (m : Matching Nat) :
    serve mask fuel counts m.signed = (serve mask fuel counts m).signed := by
  induction fuel generalizing counts m with
  | zero => rfl
  | succ fuel ih =>
    rw [serve, serve]
    cases leastCount? counts with
    | none => rfl
    | some entry =>
      obtain ⟨row, count⟩ := entry
      have hfree : firstFree (mask[row]?.getD []) m.signed.rowOfCol =
          firstFree (mask[row]?.getD []) m.rowOfCol := firstFree_signed _ _
      simp only [hfree]
      split
      · rfl
      split
      · rfl
      · rfl
      · rename_i col _
        have hselect : m.signed.select (Position.ofNat row) (Position.ofNat col) =
            (m.select row col).map Matching.signed := select_signed m row col
        rw [hselect, Position.ofNat_nat, Position.ofNat_nat]
        cases m.select row col with
        | error fault => rfl
        | ok m' => simp only [Except.map, ih, Outcome.signed]

theorem run_signed (mask : Grid Bool) (m : Matching Nat) :
    run mask m.signed = (run mask m).signed := by
  rw [run, run, clearSelected_signed, serve_signed]

end Greedy

/-! ### Paths -/

namespace AlternatingPath

open Matching

/-- A cell with signed names. -/
def signedCell (cell : Cell Nat) : Cell Int :=
  (cell.1, cell.2)

/-- A path with signed names. -/
def signed (path : AlternatingPath Nat) : AlternatingPath Int :=
  ⟨path.prepared.map signedCell, path.selected.map signedCell⟩

theorem follow_signed (m : Matching Nat) (budget col : Nat) :
    follow m.signed budget (col : Int) = (follow m budget col).map signed := by
  induction budget using Nat.strong_induction_on generalizing col with
  | _ budget ih =>
    rw [follow, follow, selectedRow_signed]
    cases m.selectedRow col with
    | error fault => rfl
    | ok slot =>
      cases slot with
      | none => rfl
      | some row =>
        simp only [Except.map, Option.map_some, bind, Except.bind, preparedCol_signed]
        cases m.preparedCol row with
        | error fault => rfl
        | ok mark =>
          cases mark with
          | none => rfl
          | some next =>
            cases budget with
            | zero => rfl
            | succ budget =>
              simp only [Option.map_some, ih budget budget.lt_succ_self]
              cases follow m budget next <;> rfl

theorem build_signed (m : Matching Nat) (row col : Nat) :
    build m.signed (row : Int) (col : Int) = (build m row col).map signed := by
  have hfollow : follow m.signed (m.signed.size - 1) (col : Int) =
      (follow m (m.size - 1) col).map signed := follow_signed m _ col
  rw [build, build, hfollow]
  cases follow m (m.size - 1) col <;> rfl

/-- Two operations that do the same, done along the cells of a list. -/
theorem along_signed {act : Matching Nat → Nat → Nat → Except Fault (Matching Nat)}
    {act' : Matching Int → Int → Int → Except Fault (Matching Int)}
    (h : ∀ m (row col : Nat), act' m.signed (row : Int) (col : Int) =
      (act m row col).map Matching.signed) (cells : List (Cell Nat)) (m : Matching Nat) :
    along act' (cells.map signedCell) m.signed =
      Prod.map Matching.signed id (along act cells m) := by
  induction cells generalizing m with
  | nil => rfl
  | cons cell cells ih =>
    obtain ⟨row, col⟩ := cell
    rw [List.map_cons, signedCell, along, along, h]
    cases act m row col with
    | error fault => rfl
    | ok m' => exact ih m'

theorem flip_signed (path : AlternatingPath Nat) (m : Matching Nat) :
    path.signed.flip m.signed = Prod.map Matching.signed id (path.flip m) := by
  have hunselect := along_signed unselect_signed path.selected m
  have hselect := fun m => along_signed select_signed path.prepared m
  rw [flip, flip, signed, hunselect]
  obtain ⟨m₁, stuck⟩ := along Matching.unselect path.selected m
  cases stuck with
  | some fault => rfl
  | none =>
    simp only [Prod.map, id, hselect]
    obtain ⟨m₂, stuck⟩ := along Matching.select path.prepared m₁
    cases stuck with
    | some fault => rfl
    | none => simp only [clearPrepared_signed]

end AlternatingPath

end OptimalAssignment
