import OptimalAssignment.Settings.Desk
import OptimalAssignment.Settings.Operations

/-!
Settings by attributes: a chain of names leads from section to section. The names of operations come
before keys, and at the top a name that starts with a low line is kept beside the tree of settings.
-/
namespace OptimalAssignment

namespace Desk

inductive AttributeFault where
  /-- Nothing is kept under a name that starts with a low line. -/
  | notKept (name : String)
  /-- A section has no such key. -/
  | noKey (name : String)
  /-- What was reached has no such attribute. -/
  | notSection
  /-- There is no name for what is to be set. -/
  | noName
  /-- Something else was put in place of the tree of settings. -/
  | treeLost
deriving Repr, DecidableEq

/-- The wording of a fault; empty for faults that have none of their own. -/
def AttributeFault.message : AttributeFault → String
  | notKept name => name
  | noKey name => s!"Config has no attribute '{name}'"
  | notSection | noName | treeLost => ""

inductive Reached where
  /-- The settings themselves. -/
  | top
  /-- The section at a path. -/
  | part (path : List String) (n : Nat)
  | value (v : Value)
  | operation (name : String)

/-- The name under which the tree of settings itself is kept. -/
def treeName : String :=
  "_cfg"

def isLow (name : String) : Bool :=
  name.startsWith "_"

def inPart (d : Desk) (path : List String) (n : Nat) (name : String) :
    Except AttributeFault Reached :=
  if Settings.sectionOperations.contains name then
    .ok (.operation (Settings.givenName "ConfigDict" name))
  else if name = "__hash__" || name = "__weakref__" then .ok (.value .null)
  else if name = "__dict__" then .ok (.value (.table []))
  else
    match Keyed.find? (.text name) (d.live.sections.slots n) with
    | some (.part m) => .ok (.part (path ++ [name]) m)
    | some (.leaf v) => .ok (.value v)
    | none => .error (.noKey name)

/-- All that is kept under names that start with a low line. -/
def kept (d : Desk) : Value :=
  Settings.ofNames ((treeName, .table d.settings.entries) :: d.aside)

def fromTop (d : Desk) (name : String) : Except AttributeFault Reached :=
  match d.aside.lookup name with
  | some v => .ok (.value v)
  | none =>
    if Settings.topOperations.contains name then
      .ok (.operation (Settings.givenName "Config" name))
    else if name = treeName then .ok (.part [] d.live.top)
    else if name = "__weakref__" then .ok (.value .null)
    else if name = "__dict__" then .ok (.value d.kept)
    else if isLow name then .error (.notKept name)
    else d.inPart [] d.live.top name

def next (d : Desk) (r : Reached) (name : String) : Except AttributeFault Reached :=
  match r with
  | .top => d.fromTop name
  | .part path n => d.inPart path n name
  | .value v =>
    if (Settings.valueOperations v).contains name then
      .ok (.operation (Settings.givenName (Settings.kindName v) name))
    else ((Settings.valuePart? name v).map (Except.ok ∘ .value)).getD (.error .notSection)
  | .operation known =>
    if name = "__name__" then .ok (.value (.text known))
    else if name = "__call__" || Settings.commonOperations.contains name then .ok (.operation name)
    else .error .notSection

def follow (d : Desk) (names : List String) : Except AttributeFault Reached :=
  names.foldlM d.next .top

def assign (d : Desk) (names : List String) (v : Value) : Except AttributeFault Desk :=
  match names.getLast? with
  | none => .error .noName
  | some name => do
    match ← d.follow names.dropLast with
    | .top =>
      if name = treeName then throw .treeLost
      if isLow name then return { d with aside := Named.put name v d.aside }
      return d.put [name] v []
    | .part path _ => return d.put (path ++ [name]) v []
    | .value _ | .operation _ => throw .notSection

end Desk

end OptimalAssignment
