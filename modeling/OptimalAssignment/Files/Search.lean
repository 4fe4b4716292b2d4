import OptimalAssignment.Files.Folder
import OptimalAssignment.Text.Pattern

/-!
Searching folders. A search goes down one folder for each part of what is sought: a plain name has
to be there, a pattern of names stands for all entries that fit it, and two stars alone stand for
the folder itself and all folders below it. What is found comes in the order of the names on the
way.
-/
namespace OptimalAssignment

inductive Sought where
  | named (name : String)
  | fitting (pattern : String)
  | below
deriving Repr, DecidableEq

inductive SearchFault where
  /-- Nothing is sought. -/
  | blank
  /-- What is sought starts at a root. -/
  | rooted
  /-- What is sought is the folder itself. -/
  | nowhere
  /-- What is sought is the folder itself, with a slash behind it. -/
  | onlyFolder
  /-- A path on the way is too long. -/
  | tooLong
  /-- Two stars stand beside other characters. -/
  | starsInName
deriving Repr, DecidableEq

def SearchFault.message : SearchFault → String
  | blank => "Unacceptable pattern: ''"
  | rooted => "Non-relative patterns are unsupported"
  | nowhere | onlyFolder => "Nothing is sought below the folder"
  | tooLong => "A path is too long"
  | starsInName => "Invalid pattern: '**' can only be an entire path component"

namespace Sought

def ofName (name : String) : Except SearchFault Sought :=
  if name = "**" then .ok below
  else if (name.splitOn "**").length > 1 then .error .starsInName
  else if Text.isPattern name then .ok (fitting name)
  else .ok (named name)

/-- The parts that a text spells, and whether only folders are sought, which a slash at the end
says. -/
def ofText (s : String) : Except SearchFault (List Sought × Bool) := do
  if s.isEmpty then throw .blank
  let p := Path.ofText s
  if p.isAbsolute then throw .rooted
  if p.names.isEmpty then throw (if s.endsWith "/" then .onlyFolder else .nowhere)
  return (← p.names.mapM ofName, s.endsWith "/")

end Sought

namespace Node

mutual

/-- The names on the way to a folder and to all folders below it. -/
def foldersFrom : Node → List (List String)
  | .file _ => []
  | .folder es => [] :: foldersIn es

/-- The names on the way to the folders among entries and to all folders below them. -/
def foldersIn : List (String × Node) → List (List String)
  | [] => []
  | (name, node) :: es => (foldersFrom node).map (name :: ·) ++ foldersIn es

end

def namesWhere (test : String → Node → Bool) (entries : List (String × Node)) : List String :=
  (entries.filter fun (name, node) => test name node).map (·.1)

/-- The node that a path leads to, if there is one. -/
def seek (root : Node) (p : Path) : Except SearchFault (Option Node) :=
  (root.find? p).mapError fun _ => .tooLong

def follow (root : Node) (foldersOnly : Bool) : List Sought → Path → Except SearchFault (List Path)
  | [], p => .ok [p]
  | part :: rest, p => do
    let inner := foldersOnly || !rest.isEmpty
    let spots ←
      match part with
      | .named name => do
        let spot := p.child name
        let found ← root.seek spot
        pure (if found.any fun node => !inner || node.isFolder then [spot] else [])
      | .fitting pattern => do
        let fits (name : String) (node : Node) : Bool :=
          Text.fitsPattern pattern name && (!inner || node.isFolder)
        pure ((namesWhere fits ((← root.seek p).elim [] entries)).map p.child)
      | .below => do
        pure (((← root.seek p).elim [] foldersFrom).map fun names => ⟨p.root, p.names ++ names⟩)
    return (← spots.mapM (follow root foldersOnly rest)).flatten

/-- What a search in a folder finds, in the order of the names on the way. -/
def search (root : Node) (folder : Path) (what : String) : Except SearchFault (List Path) := do
  let (parts, foldersOnly) ← Sought.ofText what
  let found ← root.follow foldersOnly parts folder
  return (found.mergeSort fun p q => !q.names.lex p.names).eraseDups

end Node

end OptimalAssignment
