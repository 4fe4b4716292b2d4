import OptimalAssignment.Files.Folder
import OptimalAssignment.Settings.Basic
import OptimalAssignment.Text.Newline
import OptimalAssignment.Yaml.Content

/-!
Settings files. A file may name files that it is laid over, by paths that start at its own folder;
later ones are laid over earlier ones, and each of them may name files of its own.
-/
namespace OptimalAssignment.Settings

inductive LoadFault where
  /-- There is no file at a path. -/
  | missing (path : Path)
  /-- There is a folder at a path. -/
  | isFolder
  /-- A file does not hold text. -/
  | notText
  | unreadable (fault : Yaml.YamlFault)
  /-- A file holds a list, a pair or a set. -/
  | holdsList
  /-- A file holds an atom. -/
  | holdsAtom
  /-- The files to be laid under are not named by texts. -/
  | basesNotTexts
  /-- Files name each other without end, or tables lie within each other without end. -/
  | endless
  /-- A path is longer than paths may be. -/
  | pathTooLong
deriving Repr, DecidableEq

/-- The wording of a fault; empty for faults that have none of their own. -/
def LoadFault.message : LoadFault → String
  | missing path => "Config file not found: " ++ path.text
  | _ => ""

/-- The key under which a file names the files that it is laid over. -/
def baseKey : Atom :=
  .text "_base_"

/-- The entries that a file holds; what counts as false stands for none. -/
def topEntries (v : Value) : Except LoadFault Entries :=
  if !v.isTruthy then .ok []
  else
    match v with
    | .table es => .ok es
    | .atom _ => .error .holdsAtom
    | .list _ | .pair .. | .set _ | .loop => .error .holdsList

/-- The names of the files that entries are laid over. A table gives its keys, also if it is the one
that holds the entries. -/
def basesOf (es : Entries) : Except LoadFault (List Value) :=
  match Entries.find? baseKey es with
  | none => .ok []
  | some (.text s) => .ok [.text s]
  | some .loop => .ok ((Entries.drop baseKey es).map fun e => .ofKey e.1)
  | some (.bytes []) => .ok []
  | some v => (v.parts?.map Except.ok).getD (.error .basesNotTexts)

/-- The entries of a file laid over those of the files it names, when files are read in a given way
and at most so many name each other in a row. -/
def loadWith (read : Path → Except LoadFault Value) : Nat → Path → Except LoadFault Entries
  | 0, _ => .error .endless
  | limit + 1, p => do
    let own ← topEntries (← read p)
    let bases ← basesOf own
    let under ← bases.foldlM (fun under base =>
      match base with
      | .text s => (loadWith read limit (p.parent.join (.ofText s))).map (Entries.overlay under)
      | _ => .error .basesNotTexts) []
    let merged := Entries.overlay under (Entries.drop baseKey own)
    if Value.anyEndless merged then throw .endless
    return merged

def readFile (root : Node) (p : Path) : Except LoadFault Value :=
  match root.find p with
  | .error .tooLong => .error .pathTooLong
  | .error _ => .error (.missing p)
  | .ok (.folder _) => .error .isFolder
  | .ok (.file (.text s)) =>
    match Yaml.read (Text.ofFile s) with
    | .ok v => .ok v
    | .error fault => .error (.unreadable fault)
  | .ok (.file _) => .error .notText

/-- The number of files that may name each other in a row. -/
def chainLimit : Nat := 980

def ofFile (root : Node) (p : Path) : Except LoadFault Settings :=
  (loadWith (readFile root) chainLimit p).map (⟨·⟩)

def load (root : Node) (p : Path) : Except LoadFault Settings :=
  (ofFile root p).map defaults.merge

end OptimalAssignment.Settings
