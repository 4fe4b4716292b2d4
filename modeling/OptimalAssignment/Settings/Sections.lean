import OptimalAssignment.Settings.Basic

/-!
Settings in use. Their sections are known by numbers, so one section may stand at several places,
and what is set in it is then seen at all of them. A plain table becomes sections of its own when it
is set; a section that is set somewhere else stays the one that it is.
-/
namespace OptimalAssignment

/-- What a key of a section stands for: a section, by its number, or a value that is none. -/
inductive Slot where
  | leaf (v : Value)
  | part (n : Nat)
deriving Repr

/-- What a key may be set to: a section in use, a plain table, or a value that is neither. -/
inductive Given where
  | leaf (v : Value)
  | part (n : Nat)
  | table (entries : List (Atom × Given))
deriving Repr

mutual

/-- A plain value, handed over to be set. -/
def Given.ofValue : Value → Given
  | .table es => .table (Given.ofEntries es)
  | v => .leaf v

/-- The entries of a plain table, handed over to be set. -/
def Given.ofEntries : List (Atom × Value) → List (Atom × Given)
  | [] => []
  | (key, v) :: es => (key, Given.ofValue v) :: Given.ofEntries es

end

abbrev Slots := List (Atom × Slot)

abbrev Sections := List Slots

namespace Sections

def slots (σ : Sections) (n : Nat) : Slots :=
  σ[n]?.getD []

def put (σ : Sections) (n : Nat) (key : Atom) (x : Slot) : Sections :=
  σ.modify n (Keyed.put key x)

mutual

/-- What stands for a given thing, beside the sections that are made of its tables. -/
def take : Given → Sections → Slot × Sections
  | .leaf v, σ => (.leaf v, σ)
  | .part n, σ => (.part n, σ)
  | .table es, σ =>
    let (slots, σ) := takeAll es σ
    (.part σ.length, σ ++ [slots])

/-- The entries of a new section, beside the sections that are made of the tables in it. -/
def takeAll : List (Atom × Given) → Sections → Slots × Sections
  | [], σ => ([], σ)
  | (key, v) :: es, σ =>
    let (x, σ) := take v σ
    let (slots, σ) := takeAll es σ
    ((key, x) :: slots, σ)

end

/-- What names lead to, one after the other. -/
def walk (σ : Sections) : List String → Slot → Option Slot
  | [], x => some x
  | name :: names, .part n => (Keyed.find? (.text name) (σ.slots n)).bind (σ.walk names)
  | _ :: _, .leaf _ => none

/-- The section that names lead to from a section on. Sections that are missing on the way are made,
in place of what stands there. -/
def makeWay : List String → Nat → Sections → Nat × Sections
  | [], n, σ => (n, σ)
  | name :: names, n, σ =>
    match Keyed.find? (.text name) (σ.slots n) with
    | some (.part m) => makeWay names m σ
    | _ => makeWay names σ.length (σ.put n (.text name) (.part σ.length) ++ [[]])

def assign (n : Nat) (name : String) (v : Given) (σ : Sections) : Sections :=
  let (x, σ) := take v σ
  σ.put n (.text name) x

def tell (σ : Sections) : Nat → Slot → Value
  | _, .leaf v => v
  | 0, .part _ => .loop
  | depth + 1, .part n => .table ((σ.slots n).map fun (key, x) => (key, σ.tell depth x))

end Sections

/-- Settings in use: sections, and which of them is the whole. -/
structure LiveSettings where
  sections : Sections
  top : Nat
deriving Repr

namespace LiveSettings

/-- Plain settings taken into use. -/
def of (s : Settings) : LiveSettings :=
  let (slots, σ) := Sections.takeAll (Given.ofEntries s.entries) []
  ⟨σ ++ [slots], σ.length⟩

def tell (s : LiveSettings) (x : Slot) : Value :=
  s.sections.tell s.sections.length x

def settings (s : LiveSettings) : Settings :=
  ⟨(s.tell (.part s.top)).entries⟩

/-- What a dotted key finds. -/
def get? (s : LiveSettings) (key : String) : Option Slot :=
  s.sections.walk (pathNames key) (.part s.top)

/-- What a dotted key finds, as a plain value. -/
def value? (s : LiveSettings) (key : String) : Option Value :=
  (s.get? key).map s.tell

def contains (s : LiveSettings) (key : String) : Bool :=
  (s.get? key).isSome

/-- Make the sections on the way to the last name of a path. -/
def makeWay (s : LiveSettings) (path : List String) : LiveSettings :=
  { s with sections := (Sections.makeWay path.dropLast s.top s.sections).2 }

def put (s : LiveSettings) (path : List String) (v : Given) : LiveSettings :=
  let (n, σ) := Sections.makeWay path.dropLast s.top s.sections
  { s with sections := σ.assign n (path.getLastD "") v }

def set (s : LiveSettings) (key : String) (v : Given) : LiveSettings :=
  s.put (pathNames key) v

end LiveSettings

end OptimalAssignment
