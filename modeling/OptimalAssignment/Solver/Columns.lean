import OptimalAssignment.Matching.Basic

/-!
Column lists: one column for each row, in the order of the rows. An assignment is such a list; its
inverse gives the row of each column.
-/
namespace OptimalAssignment.Columns

variable {P : Type}

def pairs (cols : List P) : List (Nat × P) :=
  cols.zipIdx.map fun (col, row) => (row, col)

variable [Position P]

def entry (cols : List P) (row : Int) : Except Fault P :=
  match Position.get? cols row with
  | some col => .ok col
  | none => .error .outOfRange

/-- Write each row to the place of its column; a later row wins. -/
def fill : List (Nat × P) → List Nat → Except Fault (List Nat)
  | [], rows => .ok rows
  | (row, col) :: rest, rows =>
    match Position.set? rows col row with
    | some rows => fill rest rows
    | none => .error .outOfRange

/-- The row of each column; zero for columns that no row has. -/
def inverse (cols : List P) : Except Fault (List Nat) :=
  fill (pairs cols) (List.replicate cols.length 0)

end OptimalAssignment.Columns
