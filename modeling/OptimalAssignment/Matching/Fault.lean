/-!
Faults: the conditions under which a step of the solver cannot go on, and their wording. A fault
names the rows and columns concerned by the numbers that appear in its text.
-/
namespace OptimalAssignment

/-- Why an operation on a matching, a path or a grid stopped. -/
inductive Fault where
  /-- A position names no line. -/
  | outOfRange
  /-- A position does not fit a machine word. -/
  | beyondWord
  /-- Flags and grid do not have one common shape. -/
  | shapesDisagree
  /-- A cell was to be selected whose row or column already holds a selected zero. -/
  | lineTaken (row col : Int)
  /-- A cell was to be unselected that is not selected. -/
  | notSelected (row col : Int)
  /-- The greedy selection came to a row without any zero. -/
  | rowExhausted (row : Nat)
  /-- The greedy selection counts zeros in a row that has none in a free column. -/
  | rowMiscounted (row count : Nat)
  /-- An alternating path came to a row without a prepared zero. -/
  | rowUnmarked (row : Int)
  /-- An alternating path grew beyond the number of rows. -/
  | pathTooLong
  /-- No cell lies in both an uncovered row and an uncovered column. -/
  | nothingUncovered
  /-- The ceiling on passes was reached; the ceiling as it was written. -/
  | ceilingReached (ceiling : String)
  /-- The ceiling on passes cannot be compared with a number. -/
  | ceilingIncomparable
  /-- An endless ceiling was not enough; only grids with undefined costs come here. -/
  | unfinished
deriving Repr, DecidableEq

namespace Fault

/-- The wording of a fault; empty for faults that have none of their own. -/
def message : Fault → String
  | lineTaken row col => s!"Cannot select ({row}, {col}): row or column already selected"
  | notSelected row col => s!"({row}, {col}) is not a selected zero"
  | rowExhausted row => s!"Greedy selection reached row {row} with no zero left"
  | rowMiscounted row count => s!"Row {row} counts {count} free zero(s) but has none"
  | rowUnmarked row => s!"Alternating path reached row {row} without a prepared zero"
  | pathTooLong => "Alternating path is longer than the matrix size"
  | nothingUncovered => "Potential adjustment found no uncovered cell"
  | ceilingReached ceiling => s!"No perfect matching after {ceiling} iterations"
  | outOfRange | beyondWord | shapesDisagree | ceilingIncomparable | unfinished => ""

/-- Whether a fault is the failure of a condition that the method relies on. -/
def isBreach : Fault → Bool
  | outOfRange | beyondWord | shapesDisagree | ceilingIncomparable | unfinished => false
  | _ => true

end Fault

end OptimalAssignment
