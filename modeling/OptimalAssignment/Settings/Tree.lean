import OptimalAssignment.Value

/-!
Settings as trees. A path is a list of names; a value is found at a path by following tables name by
name. Overlaying one tree with another keeps the first where the second says nothing, and goes into
the tables that both have.
-/
namespace OptimalAssignment

/-- The names on a path that is written with points between them. -/
def pathNames (key : String) : List String :=
  key.splitOn "."

namespace Value

def isSection : Value → Bool
  | table _ => true
  | _ => false

mutual

/-- Whether tables lie within each other without end. What lies within a list does not count. -/
def isEndless : Value → Bool
  | loop => true
  | table es => anyEndless es
  | _ => false

def anyEndless : List (Atom × Value) → Bool
  | [] => false
  | (_, v) :: es => v.isEndless || anyEndless es

end

/-- The entries of a table; other values have none. -/
def entries : Value → Entries
  | table es => es
  | _ => []

def lookup : List String → Value → Option Value
  | [], v => some v
  | name :: names, table es => (Entries.find? (.text name) es).bind (lookup names)
  | _ :: _, _ => none

mutual

/-- One value laid over another: tables are merged, anything else replaces what was there. -/
def overlay (base : Value) : Value → Value
  | table update =>
    match base with
    | table es => table (overlayEntries es update)
    | _ => table update
  | v => v

def overlayEntries (base : Entries) : List (Atom × Value) → Entries
  | [] => base
  | (key, v) :: rest =>
    let merged :=
      match Entries.find? key base with
      | some old => overlay old v
      | none => v
    overlayEntries (Entries.put key merged base) rest

end

end Value

namespace Entries

def lookup (names : List String) (es : Entries) : Option Value :=
  (Value.table es).lookup names

def overlay (base update : Entries) : Entries :=
  Value.overlayEntries base update

end Entries

end OptimalAssignment
