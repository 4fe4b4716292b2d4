import OptimalAssignment.Value

/-!
Shared parts of values. A place is a way into a value, step by step; places that carry the same
number hold one and the same thing, and not only equal things.
-/
namespace OptimalAssignment

/-- One step into a value: to an item of a list or a pair, to the value of a key, or to the key
itself. -/
inductive Step where
  | item (n : Nat)
  | entry (key : Atom)
  | key (key : Atom)
deriving Repr

def Step.same : Step → Step → Bool
  | item m, item n => m == n
  | entry a, entry b => a.same b
  | key a, key b => a.same b
  | _, _ => false

/-- A way into a value. -/
abbrev Place := List Step

namespace Place

/-- The rest of a place that leads through another one. -/
def below? : Place → Place → Option Place
  | [], p => some p
  | s :: outer, t :: p => if s.same t then below? outer p else none
  | _ :: _, [] => none

def isBelow (outer p : Place) : Bool :=
  (below? outer p).isSome

def ofNames (names : List String) : Place :=
  names.map fun name => .entry (.text name)

end Place

/-- Places with the numbers of what they hold. -/
abbrev Sharing := List (Place × Nat)

namespace Sharing

def label? (s : Sharing) (p : Place) : Option Nat :=
  (s.find? fun (q, _) => q.isBelow p && p.isBelow q).map (·.2)

/-- What is shared at a place and below it, seen from there. -/
def within (outer : Place) (s : Sharing) : Sharing :=
  s.filterMap fun (p, n) => (outer.below? p).map (·, n)

/-- What is shared elsewhere than at a place or on the way to it. -/
def offWay (place : Place) (s : Sharing) : Sharing :=
  s.filter fun (p, _) => !p.isBelow place

/-- What is shared elsewhere than at a place, below it or on the way to it. -/
def without (outer : Place) (s : Sharing) : Sharing :=
  (s.offWay outer).filter fun (p, _) => !outer.isBelow p

/-- Sharing as seen from further out. -/
def under (outer : Place) (s : Sharing) : Sharing :=
  s.map fun (p, n) => (outer ++ p, n)

/-- A number above all numbers in use. -/
def fresh (s : Sharing) : Nat :=
  s.foldl (fun n (_, k) => max n (k + 1)) 0

def raise (amount : Nat) (s : Sharing) : Sharing :=
  s.map fun (p, n) => (p, n + amount)

/-- Sharing together with sharing that has nothing in common with it. -/
def join (s t : Sharing) : Sharing :=
  s ++ t.raise s.fresh

end Sharing

end OptimalAssignment
