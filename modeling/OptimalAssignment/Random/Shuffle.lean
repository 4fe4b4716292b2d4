import OptimalAssignment.Random.Twister
import OptimalAssignment.Cost.Grid

/-!
Random grids. Every row is a shuffle of the numbers from three on; a shuffle swaps each place in
turn with a random place at or after it. One generator serves all rows.
-/
namespace OptimalAssignment.Random

def swap (xs : List Nat) (i j : Nat) : List Nat :=
  match xs[i]?, xs[j]? with
  | some a, some b => (xs.set i b).set j a
  | _, _ => xs

def shuffleFrom : Nat → Nat → List Nat → Twister → List Nat × Twister
  | 0, _, xs, t => (xs, t)
  | count + 1, i, xs, t =>
    let (word, t) := t.next
    shuffleFrom count (i + 1) (swap xs i (i + word.toNat % (xs.length - i))) t

def shuffle (n : Nat) (t : Twister) : List Nat × Twister :=
  shuffleFrom (n - 1) 0 (List.range n) t

def shuffledRows (size : Nat) : Nat → Twister → List (List Nat)
  | 0, _ => []
  | count + 1, t =>
    let (order, t) := shuffle size t
    order.map (· + 3) :: shuffledRows size count t

inductive GridFault where
  | noRows
  | seedOutOfRange
deriving Repr, DecidableEq

/-- The register for a seed between `-2 ^ 63` and `2 ^ 64`, of which thirty-two bits count. -/
def generator (seed : Int) : Except GridFault Twister :=
  if -Int.pow 2 63 ≤ seed ∧ seed < Int.pow 2 64 then .ok (.ofSeed (UInt32.ofNat (seed % Int.pow 2 32).toNat))
  else .error .seedOutOfRange

/-- A random grid; without a seed the generator has a seed of its own. -/
def grid (size : Int) (seed : Option Int) : Except GridFault (Grid Nat) := do
  let t ← generator (seed.getD 67280421310721)
  if size ≤ 0 then throw .noRows
  return shuffledRows size.toNat size.toNat t

end OptimalAssignment.Random
