import OptimalAssignment.Cost.Scalar

/-!
Least values and sums by lanes: the values are dealt out to four lanes in turn. For the least value
each lane keeps its own, and the least of the lanes is the result; among equals that differ in sign
the last one stays, within a lane and among the lanes. For a sum each lane is summed with four
running totals, and what is left over at the end is added first; for exact scalars the result is the
plain sum, for rounded ones the order of the additions is part of the result.
-/
namespace OptimalAssignment

namespace LaneMinimum

variable {α : Type} [Scalar α]

/-- The lower of a value kept and a later one; the later one of equals. -/
def later (kept x : α) : α :=
  Scalar.lower x kept

def deal : List α → List α → List α
  | lanes, a :: b :: c :: d :: rest => deal (List.zipWith later lanes [a, b, c, d]) rest
  | lanes, rest => List.zipWith later lanes rest ++ lanes.drop rest.length

/-- The least of a list, the latest of equals; zero for the empty list. -/
def leastLate : List α → α
  | [] => 0
  | x :: xs => xs.foldl later x

/-- The least of a list by lanes; fewer than four values are compared one after the other. -/
def least : List α → α
  | a :: b :: c :: d :: rest => leastLate (deal [a, b, c, d] rest)
  | xs => leastLate xs

end LaneMinimum

namespace LaneSum

variable {α : Type}

def deal : List α → List (α × α × α × α) × List α
  | a :: b :: c :: d :: rest => ((a, b, c, d) :: (deal rest).1, (deal rest).2)
  | rest => ([], rest)

/-- The plain sum from left to right, starting at a given total. -/
def plainFrom [Add α] (start : α) (xs : List α) : α :=
  xs.foldl (· + ·) start

/-- One lane: four running totals, the left-over values joining the first of them. -/
def lane [Scalar α] (xs : List α) : α :=
  let fours := (deal xs).1
  let first := plainFrom (plainFrom 0 (fours.map (·.1))) (deal xs).2
  let second := plainFrom 0 (fours.map (·.2.1))
  let third := plainFrom 0 (fours.map (·.2.2.1))
  let fourth := plainFrom 0 (fours.map (·.2.2.2))
  first + second + third + fourth

/-- The sum of a list: what is left over, then the four lanes in order. -/
def total [Scalar α] (xs : List α) : α :=
  let fours := (deal xs).1
  plainFrom 0 (deal xs).2 + lane (fours.map (·.1)) + lane (fours.map (·.2.1))
    + lane (fours.map (·.2.2.1)) + lane (fours.map (·.2.2.2))

end LaneSum

end OptimalAssignment
