import OptimalAssignment.Files.Folder
import OptimalAssignment.Settings.Options
import OptimalAssignment.Settings.Sections
import OptimalAssignment.Yaml.Writing

/-!
Settings in the course of their use, on a desk where only plain values are set in them, so that each
section stands at one place. Beside the sections there are things kept under names that start with a
low line, and it is known which parts of the values are one and the same thing: what options share
stays shared until it is replaced, or until one of the places lies in a section that is merged with
another one.
-/
namespace OptimalAssignment

def Value.at? : Place → Value → Option Value
  | [], v => some v
  | .entry key :: place, .table es => (Entries.find? key es).bind (at? place)
  | _, _ => none

namespace Sharing

/-- What is shared within a value that becomes a part of settings. Its sections come to be apart. -/
def outsideSections (v : Value) (s : Sharing) : Sharing :=
  s.filter fun (p, _) => !(v.at? p).any Value.isSection

mutual

/-- What is still shared within what stands at a place when a value was laid over it. -/
def afterOverlay (s : Sharing) (base : Option Value) : Value → Sharing
  | .table update =>
    match base with
    | some (.table es) => afterEntries s es update
    | _ => []
  | _ => []

/-- What is still shared when entries were laid over entries. -/
def afterEntries (s : Sharing) (base : Entries) : List (Atom × Value) → Sharing
  | [] => s
  | (key, v) :: rest =>
    let place : Place := [.entry key]
    let inner := afterOverlay (s.within place) (Entries.find? key base) v
    afterEntries ((s.without place).join (inner.under place)) base rest

end

end Sharing

/-- Settings in use together with what is shared within their values and what is kept beside their
tree. -/
structure Desk where
  live : LiveSettings
  shared : Sharing := []
  aside : List (String × Value) := []
deriving Repr

namespace Desk

/-- Plain settings taken into use. -/
def of (s : Settings) : Desk where
  live := .of s

def settings (d : Desk) : Settings :=
  d.live.settings

def put (d : Desk) (path : List String) (v : Value) (shared : Sharing) : Desk :=
  let place := Place.ofNames path
  { d with
    live := d.live.put path (.ofValue v)
    shared := (d.shared.without place).join ((shared.outsideSections v).under place) }

def set (d : Desk) (key : String) (v : Value) (shared : Sharing) : Desk :=
  d.put (pathNames key) v shared

/-- Set dotted keys one after the other, and tell whether that could be done. A value of tables
without end is not set, and nothing after it; but the sections on the way to it are made. -/
def apply (d : Desk) : List (String × Value × Sharing) → Desk × Bool
  | [] => (d, true)
  | (key, v, shared) :: rest =>
    if v.isEndless then
      let way := pathNames key
      ({ d with
          live := d.live.makeWay way
          shared := d.shared.offWay (Place.ofNames way.dropLast) }, false)
    else (d.set key v shared).apply rest

/-- Settings with others laid over them, in sections of their own. Nothing is kept beside them. -/
def merge (d : Desk) (update : Settings) : Desk where
  live := .of (d.settings.merge update)
  shared := d.shared.afterEntries d.settings.entries update.entries

def written (d : Desk) : String :=
  Yaml.writeShared (.table d.settings.entries) d.shared

/-- The working folder after settings were written to a file; the folders on the way are made. -/
def save (d : Desk) (root : Node) (p : Path) : Except FileFault Node := do
  (← root.makeFolders p.parent).write p (.text d.written)

end Desk

end OptimalAssignment
