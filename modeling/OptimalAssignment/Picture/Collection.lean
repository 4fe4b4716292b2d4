import OptimalAssignment.Files.Search
import OptimalAssignment.Picture.Costs

/-!
Collections of pictures: the files of a folder that fit a pattern, in the order of their names.
-/
namespace OptimalAssignment.Collection

inductive Fault where
  /-- There is no folder at a path. -/
  | noFolder (path : Path)
  | search (fault : SearchFault)
  | file (fault : FileFault)
  /-- A file holds no picture. -/
  | noPicture
deriving Repr, DecidableEq

/-- The wording of a fault; empty for faults that have none of their own. -/
def Fault.message : Fault → String
  | noFolder path => "Image directory not found: " ++ path.text
  | _ => ""

def checkFolder (root : Node) (folder : Path) : Except Fault Unit := do
  if !(← (root.isFolderAt folder).mapError .file) then throw (.noFolder folder)

/-- The paths of the files in a folder that fit a pattern. -/
def find (root : Node) (folder : Path) (pattern : String) : Except Fault (List Path) := do
  checkFolder root folder
  (root.search folder pattern).mapError .search

def openAt (root : Node) (p : Path) : Except Fault Picture := do
  match ← (root.read p).mapError Fault.file with
  | .picture picture => return picture
  | .text _ | .drawing .. => throw .noPicture

def openAll (root : Node) (paths : List Path) : Except Fault (List Picture) :=
  paths.mapM (openAt root)

/-- The journal line that reports loaded pictures; the folder is named as it was given. -/
def loadedLine (count : Nat) (folder : String) : Journal.Line :=
  ⟨Image.channel, .info, s!"Loaded {count} image(s) from {folder}"⟩

end OptimalAssignment.Collection
