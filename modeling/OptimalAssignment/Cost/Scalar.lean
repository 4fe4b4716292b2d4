import OptimalAssignment.Decimal.Layout

/-!
Costs as the solver sees them. A scalar has a zero, sums, differences, a lower of two, a test for
zero and a test for finiteness; nothing else of a number is used. Double-precision floats are the
scalars of the running program. A cost that can be shown in reports has a brief text.
-/
namespace OptimalAssignment

/-- The operations on costs that the solver is built from. -/
class Scalar (α : Type) extends Zero α, Add α, Sub α where
  /-- The lower of two; the first of two equals, and a value that is not a number wins. -/
  lower : α → α → α
  /-- Whether a value counts as a zero of the grid. -/
  isZero : α → Bool
  /-- Whether a value is neither infinite nor undefined. -/
  isFinite : α → Bool

namespace Scalar

variable {α : Type} [Scalar α]

/-- The least of a list, the earliest of equals; zero for the empty list. -/
def least : List α → α
  | [] => 0
  | x :: xs => xs.foldl lower x

end Scalar

/-- Floats: an undefined value passes through every comparison, and both zeros are zeros. -/
instance : Scalar Float where
  zero := 0.0
  lower a b := if a.isNaN then a else if a ≤ b then a else b
  isZero x := x == 0.0
  isFinite x := x.isFinite

class Legible (α : Type) where
  /-- The text of a cost. -/
  brief : α → String

/-- Floats are shown with at most six significant digits. -/
instance : Legible Float where
  brief := Decimal.briefText

end OptimalAssignment
