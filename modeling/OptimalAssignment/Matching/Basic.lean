import OptimalAssignment.Matching.Position
import OptimalAssignment.Matching.Fault

/-!
A partial matching between rows and columns. Selected zeros are kept twice, by row and by column;
prepared zeros are candidates kept by row. An operation that fails leaves the matching as it was.
-/
namespace OptimalAssignment

/-- Selected and prepared zeros of a grid of a given size. -/
structure Matching (P : Type) where
  size : Nat
  /-- The column of the selected zero of each row. -/
  colOfRow : List (Option P)
  /-- The row of the selected zero of each column. -/
  rowOfCol : List (Option P)
  /-- The column of the prepared zero of each row. -/
  markOfRow : List (Option P)
deriving Repr, DecidableEq

namespace Matching

variable {P : Type}

def empty (P : Type) (n : Nat) : Matching P where
  size := n
  colOfRow := List.replicate n none
  rowOfCol := List.replicate n none
  markOfRow := List.replicate n none

/-- The filled slots of a list, each with its number. -/
def filled (slots : List (Option P)) : List (Nat × P) :=
  slots.zipIdx.filterMap fun (slot, i) => slot.map (i, ·)

def selectedPairs (m : Matching P) : List (Nat × P) :=
  filled m.colOfRow

def preparedPairs (m : Matching P) : List (Nat × P) :=
  filled m.markOfRow

def numSelected (m : Matching P) : Nat :=
  m.colOfRow.countP Option.isSome

def clearPrepared (m : Matching P) : Matching P :=
  { m with markOfRow := List.replicate m.size none }

/-- Forget every selected zero, with room for a given number of rows and columns. -/
def clearSelected (m : Matching P) (n : Nat) : Matching P :=
  { m with colOfRow := List.replicate n none, rowOfCol := List.replicate n none }

variable [Position P]

def slotAt (slots : List (Option P)) (p : P) : Except Fault (Option P) :=
  match Position.get? slots p with
  | some slot => .ok slot
  | none => .error .outOfRange

def writeAt (slots : List (Option P)) (p : P) (content : Option P) :
    Except Fault (List (Option P)) :=
  match Position.set? slots p content with
  | some slots => .ok slots
  | none => .error .outOfRange

def selectedCol (m : Matching P) (row : P) : Except Fault (Option P) :=
  slotAt m.colOfRow row

def selectedRow (m : Matching P) (col : P) : Except Fault (Option P) :=
  slotAt m.rowOfCol col

def preparedCol (m : Matching P) (row : P) : Except Fault (Option P) :=
  slotAt m.markOfRow row

/-- Whether the row or, failing that, the column of a cell already holds a selected zero. -/
def isTaken (m : Matching P) (row col : P) : Except Fault Bool := do
  match ← m.selectedCol row with
  | some _ => return true
  | none => return (← m.selectedRow col).isSome

def select (m : Matching P) (row col : P) : Except Fault (Matching P) := do
  if ← m.isTaken row col then
    throw (.lineTaken (Position.toInt row) (Position.toInt col))
  return { m with
    colOfRow := ← writeAt m.colOfRow row (Position.slot col)
    rowOfCol := ← writeAt m.rowOfCol col (Position.slot row) }

def unselect [DecidableEq P] (m : Matching P) (row col : P) : Except Fault (Matching P) := do
  if (← m.selectedCol row) ≠ Position.slot col then
    throw (.notSelected (Position.toInt row) (Position.toInt col))
  return { m with
    colOfRow := ← writeAt m.colOfRow row none
    rowOfCol := ← writeAt m.rowOfCol col none }

/-- Record a zero as the candidate of its row. -/
def prepare (m : Matching P) (row col : P) : Except Fault (Matching P) := do
  return { m with markOfRow := ← writeAt m.markOfRow row (Position.slot col) }

end Matching

end OptimalAssignment
