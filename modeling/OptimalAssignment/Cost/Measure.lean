import OptimalAssignment.Cost.Scalar

/-!
Costs that can be measured: beside the operations of the solver they have products, quotients,
roots, magnitudes and an image of every count. Means and distances are built from these.
-/
namespace OptimalAssignment

class Measure (α : Type) extends Scalar α, Mul α, Div α where
  /-- A count as a cost. -/
  count : Nat → α
  /-- The square root. -/
  root : α → α
  /-- A value without its sign. -/
  magnitude : α → α

namespace Measure

variable {α : Type} [Measure α]

def total (xs : List α) : α :=
  xs.foldl (· + ·) 0

def mean (xs : List α) : α :=
  total xs / count xs.length

/-- The differences of two points coordinate by coordinate. A point with one coordinate stands for
the point that has it everywhere. -/
def differences (xs ys : List α) : List α :=
  match xs, ys with
  | [x], ys => ys.map (x - ·)
  | xs, [y] => xs.map (· - y)
  | xs, ys => List.zipWith (· - ·) xs ys

/-- The distance of two points: the root of the sum of the squared differences of their coordinates,
which for a single difference is its magnitude. -/
def distance (xs ys : List α) : α :=
  match differences xs ys with
  | [] => root 0
  | [d] => magnitude d
  | d :: ds => root (ds.foldl (fun sum d => sum + d * d) (d * d))

end Measure

instance : Measure Float where
  count := Float.ofNat
  root := Float.sqrt
  magnitude := Float.abs

end OptimalAssignment
