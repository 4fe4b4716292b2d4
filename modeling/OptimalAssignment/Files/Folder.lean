import OptimalAssignment.Files.Path
import OptimalAssignment.Picture
import OptimalAssignment.Text.Newline
import OptimalAssignment.Value

/-!
Folders and what lies in them. A path is followed name by name from the working folder; it fails at
the first name that is missing, that is too long, or that leads through something other than a
folder. What lies beyond the working folder is out of sight: a few landmarks are there, but nothing
else is found, and what is written there is not kept.
-/
namespace OptimalAssignment

inductive Content where
  | text (s : String)
  | picture (p : Picture)
  /-- A drawing of which only the size is kept. -/
  | drawing (width height : Nat)
deriving Repr

/-- A file, or a folder with its entries in the order in which they were made. -/
inductive Node where
  | file (content : Content)
  | folder (entries : List (String × Node))
deriving Repr

inductive FileFault where
  | missing
  | isFolder
  | notFolder
  | exists
  /-- A file does not hold text. -/
  | notText
  /-- A path, or a name on it, is too long. -/
  | tooLong
  /-- A path holds the character that ends texts elsewhere. -/
  | holdsZero
deriving Repr, DecidableEq

/-- The wording of a fault; empty for faults that have none of their own. -/
def FileFault.message : FileFault → String
  | holdsZero => "embedded null byte"
  | _ => ""

namespace Node

def empty : Node :=
  .folder []

def isFolder : Node → Bool
  | .folder _ => true
  | .file _ => false

def entries : Node → List (String × Node)
  | .folder es => es
  | .file _ => []

def entry? (node : Node) (name : String) : Option Node :=
  node.entries.lookup name

/-- The node at the end of a list of names without points. -/
def descend? (node : Node) : List String → Option Node
  | [] => some node
  | name :: names => (node.entry? name).bind (descend? · names)

/-- The node with another one put at the end of a list of names; folders on the way are made. -/
def plant (new : Node) : List String → Node → Node
  | [], _ => new
  | name :: names, node =>
    .folder (Named.put name (plant new names ((node.entry? name).getD empty)) node.entries)

mutual

/-- The files below a node, each with the names on the way to it. -/
def files : Node → List (List String × Content)
  | .file content => [([], content)]
  | .folder es => filesIn es

/-- The files below entries, each with the names on the way to it. -/
def filesIn : List (String × Node) → List (List String × Content)
  | [] => []
  | (name, node) :: es =>
    (files node).map (fun (names, content) => (name :: names, content)) ++ filesIn es

end

/-- Where a list of names leads: to names without points in the working folder, or out of it and on
by names from one of the folders that it lies in. -/
inductive Spot where
  | within (names : List String)
  | beyond (names : List String)
deriving Repr, DecidableEq

/-- Where a list of names leads from a spot. Every name is looked up in a folder that has to be
there; the last name itself may be missing. -/
def locate (root : Node) : Spot → List String → Except FileFault Spot
  | spot, [] => .ok spot
  | .beyond reached, name :: names =>
    if name = ".." then
      if reached.isEmpty then locate root (.beyond []) names else .error .missing
    else locate root (.beyond (reached ++ [name])) names
  | .within reached, name :: names =>
    match root.descend? reached with
    | none => .error .missing
    | some (.file _) => .error .notFolder
    | some (.folder _) =>
      if name = ".." then
        locate root (if reached.isEmpty then .beyond [] else .within reached.dropLast) names
      else if Path.isLongName name then .error .tooLong
      else locate root (.within (reached ++ [name])) names

def spotOf (root : Node) (p : Path) : Except FileFault Spot :=
  locate root (if p.isAbsolute then .beyond [] else .within []) p.names

/-- What is known to lie beyond the working folder: the root, the folder of devices and the one for
temporary things, and the file that is always empty. -/
def landmarks : List (List String × Node) :=
  [([], empty), (["tmp"], empty), (["dev"], empty), (["dev", "null"], .file (.text ""))]

def nodeAt? (root : Node) : Spot → Option Node
  | .within names => root.descend? names
  | .beyond names => landmarks.lookup names

def find (root : Node) (p : Path) : Except FileFault Node := do
  if p.isTooLong then throw .tooLong
  match root.nodeAt? (← root.spotOf p) with
  | some node => return node
  | none => throw .missing

/-- The node that a path leads to, if it leads anywhere. A path that is too long is a fault. -/
def find? (root : Node) (p : Path) : Except FileFault (Option Node) :=
  match root.find p with
  | .ok node => .ok (some node)
  | .error .tooLong => .error .tooLong
  | .error _ => .ok none

def isFolderAt (root : Node) (p : Path) : Except FileFault Bool :=
  (root.find? p).map fun node => node.any isFolder

def read (root : Node) (p : Path) : Except FileFault Content := do
  match ← root.find p with
  | .file content => return content
  | .folder _ => throw .isFolder

/-- The text of the file that a path leads to, with plain line ends. -/
def readText (root : Node) (p : Path) : Except FileFault String := do
  match ← root.read p with
  | .text s => return Text.ofFile s
  | .picture _ | .drawing .. => throw .notText

def checkPath (p : Path) : Except FileFault Unit :=
  if p.hasZero then .error .holdsZero else if p.isTooLong then .error .tooLong else .ok ()

def plantAt (new root : Node) : Spot → Node
  | .within names => plant new names root
  | .beyond _ => root

def write (root : Node) (p : Path) (content : Content) : Except FileFault Node := do
  checkPath p
  let spot ← root.spotOf p
  match root.nodeAt? spot with
  | some (.folder _) => throw .isFolder
  | _ => return plantAt (.file content) root spot

/-- Make the folders on the way that a list of names describes, one after the other. -/
def makeEach (root : Node) (start : Spot) (done : List String) :
    List String → Except FileFault Node
  | [] => .ok root
  | name :: names => do
    let way := done ++ [name]
    let spot ← locate root start way
    match root.nodeAt? spot with
    | some (.folder _) => makeEach root start way names
    | some (.file _) => .error (if names.isEmpty then .exists else .notFolder)
    | none => makeEach (plantAt empty root spot) start way names

/-- Make the folder that a path leads to, and those on the way, unless they are there. -/
def makeFolders (root : Node) (p : Path) : Except FileFault Node := do
  checkPath p
  makeEach root (if p.isAbsolute then .beyond [] else .within []) [] p.names

end Node

end OptimalAssignment
