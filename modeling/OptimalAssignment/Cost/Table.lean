import OptimalAssignment.Cost.Grid

/-!
Tables handed in for solving. A table comes as rows of numbers or as an array with a shape. It is
accepted if it is a square grid with at least one row and, on request, without infinite or undefined
costs; otherwise the rejection names the first reason found.
-/
namespace OptimalAssignment

inductive Rejection where
  /-- The thing handed in has no rows at all. -/
  | noRows
  /-- A value stands where a number is expected, or a number where values are expected. -/
  | notNumber
  /-- A text stands where a number is expected and is not read as one. -/
  | notNumeral
  /-- Parts that should be equally long are not. -/
  | uneven
  /-- The cells do not fill the shape. -/
  | unfilled
  /-- A number lies beyond all floats, or beyond the numbers of a kind of element. -/
  | tooLarge
  /-- A number is not one that a kind of element keeps. -/
  | wontFit
  /-- A cell lies beyond the end of its row. -/
  | beyondRow
  | empty
  | rowNotSequence (row : Nat)
  | rowLength (row length size : Nat)
  | notPlane (shape : List Nat)
  | notSquare (rows cols : Nat)
  | notFinite
deriving Repr, DecidableEq

namespace Rejection

/-- A shape between parentheses; a single length is followed by a comma. -/
def shapeText : List Nat → String
  | [n] => s!"({n},)"
  | ns => "(" ++ String.intercalate ", " (ns.map toString) ++ ")"

/-- The wording of a rejection; empty for reasons that have none of their own. -/
def message : Rejection → String
  | empty => "Cost matrix is empty"
  | rowNotSequence row => s!"Row {row} is not a sequence"
  | rowLength row length size => s!"Row {row} has {length} entries, expected {size}"
  | notPlane shape => "Cost matrix must be 2-dimensional, got shape " ++ shapeText shape
  | notSquare rows cols => s!"Cost matrix must be square, got {rows}x{cols}"
  | notFinite => "Cost matrix contains NaN or infinite values"
  | noRows | notNumber | notNumeral | uneven | unfilled | tooLarge | wontFit | beyondRow => ""

def isShape : Rejection → Bool
  | empty | rowNotSequence _ | rowLength .. | notPlane _ | notSquare .. => true
  | _ => false

end Rejection

inductive Table (α : Type) where
  /-- Rows of numbers, each of any length. -/
  | rows (lists : List (List α))
  /-- Cells in row-major order together with the lengths of their axes. -/
  | array (shape : List Nat) (cells : List α)
  /-- A thing that holds no table of numbers, and the reason. -/
  | unreadable (reason : Rejection)
deriving Repr

namespace Table

variable {α : Type}

/-- The first row whose length is missing or differs from the size. -/
def wrongRow? (size : Nat) : Nat → List (Option Nat) → Option Rejection
  | _, [] => none
  | i, none :: _ => some (.rowNotSequence i)
  | i, some k :: rest =>
    if k = size then wrongRow? size (i + 1) rest else some (.rowLength i k size)

/-- Check that there are rows and that each is as long as there are rows. -/
def checkLengths (lengths : List (Option Nat)) : Except Rejection Unit :=
  if lengths.isEmpty then .error .empty
  else
    match wrongRow? lengths.length 0 lengths with
    | some reason => .error reason
    | none => .ok ()

/-- Check that a shape is a plane with at least one row, at least one column, and as many of the
one as of the other. -/
def checkShape : List Nat → Except Rejection Unit
  | [height, width] =>
    if height = 0 ∨ width = 0 then .error .empty
    else if height ≠ width then .error (.notSquare height width)
    else .ok ()
  | shape => .error (.notPlane shape)

def extent (shape : List Nat) : Nat :=
  shape.foldl (· * ·) 1

/-- Cut a list into a number of pieces of a given length. -/
def pieces (length : Nat) : Nat → List α → List (List α)
  | 0, _ => []
  | count + 1, xs => xs.take length :: pieces length count (xs.drop length)

/-- Pass a grid on if no cost of it has to be finite or all costs are. -/
def checkFinite [Scalar α] (required : Bool) (g : Grid α) : Except Rejection (Grid α) :=
  if required && !g.all (·.all Scalar.isFinite) then .error .notFinite else .ok g

def accept [Scalar α] (finite : Bool) : Table α → Except Rejection (Grid α)
  | .rows lists => do
    checkLengths (lists.map fun row => some row.length)
    checkFinite finite lists
  | .array shape cells => do
    checkShape shape
    let n := shape.headD 0
    checkFinite finite (pieces n n cells)
  | .unreadable reason => .error reason

end Table

end OptimalAssignment
