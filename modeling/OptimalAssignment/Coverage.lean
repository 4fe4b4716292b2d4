import OptimalAssignment.Matching.Basic
import OptimalAssignment.Cost.Grid

/-!
Cover flags: one per row and one per column. A cell is uncovered if neither its row nor its column
is covered, and doubly covered if both are.
-/
namespace OptimalAssignment

/-- Which rows and which columns of a grid of a given size are covered. -/
structure Coverage where
  size : Nat
  rows : List Bool
  cols : List Bool
deriving Repr, DecidableEq

namespace Coverage

/-- The coverage of a grid of a given size without any covered line. -/
def empty (n : Nat) : Coverage where
  size := n
  rows := List.replicate n false
  cols := List.replicate n false

/-- The mask of the cells whose row and column are both uncovered. -/
def uncovered (c : Coverage) : Grid Bool :=
  Grid.ofLabels (fun row col => !row && !col) c.rows c.cols

def numCoveredRows (c : Coverage) : Nat :=
  c.rows.count true

def numCoveredCols (c : Coverage) : Nat :=
  c.cols.count true

/-- Whether every column is covered, so that the matching behind the flags is perfect. -/
def isOptimal (c : Coverage) : Bool :=
  c.numCoveredCols == c.size

/-- The numbers of the raised flags of a list. -/
def raised (flags : List Bool) : List Nat :=
  flags.zipIdx.filterMap fun (flag, i) => if flag then some i else none

/-- Cover exactly the columns that hold a selected zero and uncover every row; the matching must
have a slot for each column. -/
def coverSelected {P : Type} (c : Coverage) (m : Matching P) : Except Fault Coverage :=
  if m.rowOfCol.length < c.size then .error .outOfRange
  else .ok { c with
    rows := c.rows.map fun _ => false
    cols := (m.rowOfCol.take c.size).map Option.isSome }

variable {P : Type} [Position P]

def coverRow (c : Coverage) (row : P) : Except Fault Coverage :=
  match Position.set? c.rows row true with
  | some rows => .ok { c with rows }
  | none => .error (Position.strayFault row)

def uncoverCol (c : Coverage) (col : P) : Except Fault Coverage :=
  match Position.set? c.cols col false with
  | some cols => .ok { c with cols }
  | none => .error (Position.strayFault col)

end Coverage

end OptimalAssignment
