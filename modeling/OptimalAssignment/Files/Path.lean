/-!
Paths: a root or none, and the names on the way. Empty names and single points do not count; two
points go one folder up and are kept as they are.
-/
namespace OptimalAssignment

structure Path where
  /-- What stands before the names: nothing for a way that starts at the working folder. -/
  root : String
  names : List String
deriving Repr, DecidableEq

namespace Path

/-- The path that a text spells. Two slashes at the start are a root of their own; one slash, or
three and more, are the common root. -/
def ofText (s : String) : Path :=
  let slashes := (s.toList.takeWhile (· == '/')).length
  let root := if slashes = 0 then "" else if slashes = 2 then "//" else "/"
  ⟨root, (s.splitOn "/").filter fun name => name != "" && name != "."⟩

/-- The text of a path; a point stands for the working folder. -/
def text (p : Path) : String :=
  if p.root = "" ∧ p.names = [] then "." else p.root ++ String.intercalate "/" p.names

def isAbsolute (p : Path) : Bool :=
  p.root != ""

/-- One path after the other; a path with a root stands for itself. -/
def join (p q : Path) : Path :=
  if q.isAbsolute then q else ⟨p.root, p.names ++ q.names⟩

def child (p : Path) (name : String) : Path :=
  ⟨p.root, p.names ++ [name]⟩

def parent (p : Path) : Path :=
  ⟨p.root, p.names.dropLast⟩

/-- The greatest number of bytes of one name. -/
def nameLimit : Nat := 255

/-- The number of bytes that no path reaches. -/
def sizeLimit : Nat := 4096

def isLongName (name : String) : Bool :=
  nameLimit < name.utf8ByteSize

/-- Whether a path is longer than paths may be, or starts at a root with a name that is. -/
def isTooLong (p : Path) : Bool :=
  sizeLimit ≤ p.text.utf8ByteSize || (p.isAbsolute && p.names.head?.any isLongName)

def hasZero (p : Path) : Bool :=
  p.names.any (·.toList.contains '\x00')

def name (p : Path) : String :=
  p.names.getLast?.getD ""

end Path

end OptimalAssignment
