import OptimalAssignment.Matching.Fault

/-!
Positions: how a row or a column of a grid is named. The solver names lines by natural numbers. At
the workbench, where single operations are tried out by hand, lines are named by signed numbers: a
negative one counts from the end, and `-1`, written into a slot, empties it.
-/
namespace OptimalAssignment

/-- A way to name the lines of a grid. -/
class Position (P : Type) where
  /-- The name of the line with a given number. -/
  ofNat : Nat → P
  /-- The number of the line that a name stands for among `n` lines. -/
  index? : Nat → P → Option Nat
  /-- What a slot holds after the name is written into it. -/
  slot : P → Option P
  /-- The number that stands for a name in texts. -/
  toInt : P → Int
  /-- Whether a name fits a machine word. -/
  isWord : P → Bool

instance : Position Nat where
  ofNat i := i
  index? n p := if p < n then some p else none
  slot p := some p
  toInt p := p
  isWord _ := true

/-- A signed position: from the start when it is not negative, from the end otherwise. -/
def signedIndex? (n : Nat) (p : Int) : Option Nat :=
  let i := if p < 0 then p + n else p
  if 0 ≤ i ∧ i < n then some i.toNat else none

instance : Position Int where
  ofNat i := i
  index? := signedIndex?
  slot p := if p = -1 then none else some p
  toInt p := p
  isWord p := -Int.pow 2 63 ≤ p && p < Int.pow 2 63

/-- A cell is the pair of its row and its column. -/
abbrev Cell (P : Type) := P × P

namespace Position

variable {P α : Type} [Position P]

def get? (xs : List α) (p : P) : Option α :=
  (index? xs.length p).bind (xs[·]?)

/-- The list with the entry that a position names replaced. -/
def set? (xs : List α) (p : P) (a : α) : Option (List α) :=
  (index? xs.length p).map (xs.set · a)

/-- What is wrong with a name that stands for no line: it names none, or is no machine word. -/
def strayFault (p : P) : Fault :=
  if isWord p then .outOfRange else .beyondWord

@[simp] theorem index?_nat (n p : Nat) : index? n p = if p < n then some p else none := rfl

@[simp] theorem slot_nat (p : Nat) : slot p = some p := rfl

@[simp] theorem isWord_nat (p : Nat) : isWord p = true := rfl

@[simp] theorem ofNat_nat (p : Nat) : (ofNat p : Nat) = p := rfl

theorem get?_nat (xs : List α) (p : Nat) : get? xs p = xs[p]? := by
  by_cases h : p < xs.length <;> simp [get?, h]

theorem set?_nat (xs : List α) (p : Nat) (a : α) :
    set? xs p a = if p < xs.length then some (xs.set p a) else none := by
  by_cases h : p < xs.length <;> simp [set?, h]

end Position

end OptimalAssignment
