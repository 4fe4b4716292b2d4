import OptimalAssignment.Settings.Tree

/-!
Settings: a tree of entries that is read by dotted keys, and the entries that every run starts from.
-/
namespace OptimalAssignment

structure Settings where
  entries : Entries := []
deriving Repr

namespace Settings

def get? (s : Settings) (key : String) : Option Value :=
  Entries.lookup (pathNames key) s.entries

/-- The value of a dotted key, or another one if the key is absent. -/
def getD (s : Settings) (key : String) (default : Value) : Value :=
  (s.get? key).getD default

def contains (s : Settings) (key : String) : Bool :=
  (s.get? key).isSome

inductive EntryFault where
  /-- What should be an entry, or a collection of entries, has no parts; or the key has parts. -/
  | notEntry
  /-- What should be an entry has not two parts. -/
  | notTwoParts
deriving Repr, DecidableEq

/-- A key and its value, from a value with two parts. -/
def entryOf (v : Value) : Except EntryFault (Atom × Value) :=
  match v.parts? with
  | some [.atom key, value] => .ok (key, value)
  | some [_, _] | none => .error .notEntry
  | some _ => .error .notTwoParts

/-- The settings that a value holds: a table, or entries one after the other; what counts as false
holds none. -/
def ofValue (v : Value) : Except EntryFault Settings :=
  if !v.isTruthy then .ok {}
  else
    match v, v.parts? with
    | .table es, _ => .ok ⟨es⟩
    | _, some parts => do return ⟨Entries.ofList (← parts.mapM entryOf)⟩
    | _, none => .error .notEntry

def merge (s t : Settings) : Settings :=
  ⟨Entries.overlay s.entries t.entries⟩

def describe (s : Settings) : String :=
  "Config(" ++ (Value.table s.entries).literal ++ ")"

def ofNames (entries : List (String × Value)) : Value :=
  .table (entries.map fun (key, v) => (.text key, v))

/-- The settings that hold where nothing else is said. An absent ceiling stands for the standard
one. -/
def defaults : Settings where
  entries := (ofNames [
    ("solver", ofNames [("max_iterations", .null), ("check_finite", .truth true)]),
    ("logging", ofNames [("enabled", .truth false), ("level", .text "INFO"),
      ("log_interval", .integer 1)]),
    ("export", ofNames [("enabled", .truth false), ("output_dir", .text "/tmp/hungarian_steps"),
      ("cell_size", .integer 60)]),
    ("costs", ofNames [("num_workers", .integer 4), ("pattern", .text "*.png")])]).entries

end Settings

end OptimalAssignment
