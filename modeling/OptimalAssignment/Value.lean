import OptimalAssignment.Decimal.Read
import OptimalAssignment.Moment

/-!
Values of settings files and of tables handed in. A value is an atom, a list, a pair, a set of
atoms, or a table whose entries keep the order in which they were made and whose keys are atoms. Two
keys are the same if they are equal as numbers or equal otherwise. An undefined number that was
worked out is the same as no key; the one that has a name is the same as itself. What is kept by
keys or by names stays in the order in which these first came up.
-/
namespace OptimalAssignment

/-- A value without parts. -/
inductive Atom where
  | null
  | truth (b : Bool)
  | integer (n : Int)
  | real (x : Float)
  | text (s : String)
  | bytes (data : List UInt8)
  | moment (m : Moment)
  /-- The undefined number that has a name, as a key. -/
  | undefined
deriving Repr, Inhabited

/-- A value: an atom, a list, a pair, a set, or a table of entries. -/
inductive Value where
  | atom (a : Atom)
  | list (items : List Value)
  | pair (first second : Value)
  | set (items : List Atom)
  | table (entries : List (Atom × Value))
  /-- A collection within itself: what it holds is not told again. -/
  | loop
deriving Repr, Inhabited

abbrev Entries := List (Atom × Value)

namespace Atom

def wholeOf? (x : Float) : Option Int :=
  match Decimal.decode x with
  | .finite negative b =>
    let r := b.ratio
    if r.num % r.den = 0 then
      some (if negative then -((r.num / r.den : Nat) : Int) else (r.num / r.den : Nat))
    else none
  | _ => none

/-- The whole number behind an atom; truth values count as one and zero. -/
def whole? : Atom → Option Int
  | truth b => some (if b then 1 else 0)
  | integer n => some n
  | real x => wholeOf? x
  | _ => none

def same : Atom → Atom → Bool
  | null, null => true
  | text s, text t => s == t
  | bytes b, bytes c => b == c
  | moment m, moment n => m.same n
  | undefined, undefined => true
  | real x, real y => x == y
  | a, b =>
    match a.whole?, b.whole? with
    | some m, some n => m == n
    | _, _ => false

@[simp] theorem same_text (s t : String) : same (text s) (text t) = (s == t) := rfl

/-- Whether an atom counts as true: not null, not zero, not empty. -/
def isTruthy : Atom → Bool
  | null => false
  | truth b => b
  | integer n => n != 0
  | real x => x != 0.0
  | text s => !s.isEmpty
  | bytes b => !b.isEmpty
  | moment _ | undefined => true

def literal : Atom → String
  | null => "None"
  | truth b => if b then "True" else "False"
  | integer n => toString n
  | real x => Decimal.fullText x
  | text s => Text.literal s
  | bytes b => Text.bytesLiteral b
  | moment m => m.literal
  | undefined => Decimal.fullText Decimal.undefined

def plain : Atom → String
  | text s => s
  | moment m => m.textWith " "
  | a => a.literal

end Atom

namespace Keyed

variable {α : Type}

def find? (key : Atom) : List (Atom × α) → Option α
  | [] => none
  | (k, x) :: rest => if k.same key then some x else find? key rest

/-- Let a key stand for a thing: in its place if it is there, at the end otherwise. -/
def put (key : Atom) (x : α) : List (Atom × α) → List (Atom × α)
  | [] => [(key, x)]
  | (k, y) :: rest => if k.same key then (k, x) :: rest else (k, y) :: put key x rest

end Keyed

namespace Named

variable {β : Type}

/-- Give a name a thing: in its place if the name is there, at the end otherwise. -/
def put (name : String) (x : β) : List (String × β) → List (String × β)
  | [] => [(name, x)]
  | (other, y) :: rest => if other = name then (name, x) :: rest else (other, y) :: put name x rest

theorem lookup_put (name other : String) (x : β) (xs : List (String × β)) :
    (put name x xs).lookup other = if other = name then some x else xs.lookup other := by
  induction xs with
  | nil => simp only [put, List.lookup_cons, List.lookup_nil]; split <;> simp_all
  | cons entry rest ih =>
    obtain ⟨key, y⟩ := entry
    by_cases hk : key = name
    · subst hk
      simp only [put, if_pos, List.lookup_cons]
      split <;> simp_all
    · simp only [put, if_neg hk, List.lookup_cons, ih]
      split <;> simp_all

end Named

namespace Entries

def find? (key : Atom) (es : Entries) : Option Value :=
  Keyed.find? key es

def put (key : Atom) (value : Value) (es : Entries) : Entries :=
  Keyed.put key value es

def drop (key : Atom) (es : Entries) : Entries :=
  List.filter (fun e => !e.1.same key) es

def ofList (pairs : List (Atom × Value)) : Entries :=
  pairs.foldl (fun es (k, v) => put k v es) []

end Entries

namespace Value

@[match_pattern] def null : Value := atom .null

@[match_pattern] def truth (b : Bool) : Value := atom (.truth b)

@[match_pattern] def integer (n : Int) : Value := atom (.integer n)

@[match_pattern] def real (x : Float) : Value := atom (.real x)

@[match_pattern] def text (s : String) : Value := atom (.text s)

@[match_pattern] def bytes (data : List UInt8) : Value := atom (.bytes data)

/-- Whether a value counts as true: a list, a set or a table does if it has entries. -/
def isTruthy : Value → Bool
  | atom a => a.isTruthy
  | list items => !items.isEmpty
  | set items => !items.isEmpty
  | table entries => !entries.isEmpty
  | pair .. | loop => true

def ofKey : Atom → Value
  | .undefined => real Decimal.undefined
  | a => atom a

mutual

def literal : Value → String
  | atom a => a.literal
  | list items => "[" ++ String.intercalate ", " (literals items) ++ "]"
  | pair a b => "(" ++ a.literal ++ ", " ++ b.literal ++ ")"
  | set [] => "set()"
  | set items => "\x7b" ++ String.intercalate ", " (items.map Atom.literal) ++ "\x7d"
  | table entries => "\x7b" ++ String.intercalate ", " (entryLiterals entries) ++ "\x7d"
  | loop => "..."

def literals : List Value → List String
  | [] => []
  | v :: vs => v.literal :: literals vs

def entryLiterals : List (Atom × Value) → List String
  | [] => []
  | (k, v) :: es => (k.literal ++ ": " ++ v.literal) :: entryLiterals es

end

/-- The plain text of a value: a text is itself, anything else its literal. -/
def plain : Value → String
  | atom a => a.plain
  | v => v.literal

/-- The parts of a value: the items of a list or a set, both parts of a pair, the keys of a table,
the characters of a text. -/
def parts? : Value → Option (List Value)
  | list items => some items
  | pair a b => some [a, b]
  | set items => some (items.map ofKey)
  | table entries => some (entries.map fun e => ofKey e.1)
  | text s => some (s.toList.map fun c => text (String.singleton c))
  | _ => none

end Value

end OptimalAssignment
