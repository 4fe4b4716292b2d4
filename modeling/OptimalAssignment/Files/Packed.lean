import OptimalAssignment.Files.Folder

/-!
Packed files. The ending of a name says how a file is packed, and a file that is not there may be
there in a packed form under a longer name. Plain text is never what a packing makes; it can only be
cut short before that shows.
-/
namespace OptimalAssignment

inductive Packing where
  | gzip
  | bzip
  | lzma
deriving Repr, DecidableEq

inductive PackedFault where
  /-- A file is not packed in the way that its name says. -/
  | foreign (packing : Packing)
  /-- A file ends too soon. -/
  | cutShort
deriving Repr, DecidableEq

namespace Packing

/-- The endings of names, with the ways of packing that they stand for. -/
def endings : List (String × Packing) :=
  [(".bz2", bzip), (".gz", gzip), (".xz", lzma), (".lzma", lzma)]

/-- The way of packing that a name stands for; there has to be something in front of the ending. -/
def ofName? (name : String) : Option Packing :=
  (endings.find? fun (ending, _) =>
    name.endsWith ending && !(name.toList.take (name.length - ending.length)).all (· == '.')).map
      (·.2)

/-- Whether a first byte may open packed data: its parts have to go together. -/
def opensLzma (b : UInt8) : Bool :=
  b < 225 && b % 9 + b / 9 % 5 ≤ 4

/-- The text that a packed file spells, where the file holds plain text. -/
def unpack (packing : Packing) (s : String) : Except PackedFault String :=
  let bytes := s.toUTF8.toList
  match packing with
  | gzip => if s.isEmpty then .ok "" else .error (.foreign gzip)
  | bzip => if s.toList.isPrefixOf "BZh".toList then .error .cutShort else .error (.foreign bzip)
  | lzma =>
    if bytes.length < 5 && bytes.head?.all opensLzma then .error .cutShort
    else .error (.foreign lzma)

end Packing

namespace Path

/-- The paths of the packed forms of a file in the order in which they are tried, unless its name
says how it is packed itself. -/
def packedForms (p : Path) : List Path :=
  if (Packing.ofName? p.name).isSome then []
  else Packing.endings.map fun (ending, _) => ⟨p.root, p.names.dropLast ++ [p.name ++ ending]⟩

/-- The path from the working folder on in which two points take back the name before them. -/
def straight (p : Path) : Path :=
  ⟨"", p.names.foldl (fun names name => if name = ".." then names.dropLast else names ++ [name]) []⟩

/-- Whether a text spells the path of a folder, whatever there is. -/
def asksFolder (s : String) : Bool :=
  s.endsWith "/" || s.endsWith "/."

end Path

namespace Node

/-- The path under which the file that a text names is found: its own or that of a packed form. No
packed form is looked for if the file would be found by the names alone. -/
def formAt (root : Node) (s : String) : Except FileFault Path :=
  let p := Path.ofText s
  match root.find p with
  | .ok node => if Path.asksFolder s && !node.isFolder then .error .notFolder else .ok p
  | .error fault =>
    if (root.find p.straight).toOption.isSome then .error fault
    else
      let there (q : Path) : Bool := !Path.asksFolder s && (root.find q).toOption.isSome
      ((p.packedForms.find? there).map Except.ok).getD (.error .missing)

end Node

end OptimalAssignment
