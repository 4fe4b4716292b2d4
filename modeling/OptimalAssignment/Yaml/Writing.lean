import OptimalAssignment.Yaml.Draft
import OptimalAssignment.Yaml.Style

/-!
Writing values: tables and lists in lines, the entries of a table indented further than its key, the
items of a list behind dashes below theirs. Collections without parts are written as brackets. A key
that is empty, long or has lines is announced by a question mark. Bytes are written in lines of
their own, and sets as tables of nothing, both under a tag. Anchors stand before what they name.
-/
namespace OptimalAssignment.Yaml

/-- Floats keep a point also before an exponent, and the names of endless and undefined ones begin
with a point. -/
def floatLayout : Decimal.Layout where
  highest := 15
  wholeMark := ".0"
  exponentMark := ".0"
  undefined := ".nan"
  infinite := ".inf"

/-- Characters cut into lines of at most seventy-six, each with its end. -/
def bytesLines : Nat → List Char → List Char
  | 0, cs => cs
  | fuel + 1, cs =>
    if cs.isEmpty then [] else cs.take 76 ++ '\n' :: bytesLines fuel (cs.drop 76)

def atomText : Atom → String
  | .null => "null"
  | .truth b => if b then "true" else "false"
  | .integer n => toString n
  | .real x => floatLayout.write Decimal.shortest x
  | .text s => s
  | .bytes data => String.ofList (bytesLines data.length (Text.toBase64 data))
  | .moment m => m.textWith " "
  | .undefined => floatLayout.undefined

def atomTag : Atom → Tag
  | .null => .null
  | .truth _ => .truth
  | .integer _ => .integer
  | .real _ | .undefined => .real
  | .text _ => .text
  | .bytes _ => .bytes
  | .moment _ => .moment

def tagLength (a : Atom) : Nat :=
  match Tag.names.find? fun (_, t) => t == atomTag a with
  | some (name, _) => name.length + 2
  | none => 0

def isWrittenBreak (c : Char) : Bool :=
  isBreak c && c != '\r'

def anchorLength (anchor : Option Nat) : Nat :=
  anchor.elim 0 fun n => (Draft.anchorName n).length

/-- Whether a key stands before its colon without announcement. -/
def isSimpleKey : Draft → Bool
  | .alias _ => true
  | .scalar anchor a =>
    let cs := (atomText a).toList
    anchorLength anchor + tagLength a + cs.length < 128 && !cs.isEmpty && !cs.any isWrittenBreak
  | _ => false

namespace Pen

def lines (indent : Nat) (cs : List Char) (p : Pen) : Pen :=
  (((String.ofList cs).splitOn "\n").filter (!·.isEmpty)).foldl
    (fun p line => p.breakLine.indentTo indent |>.put line.toList) (p.word "|")

def atom (a : Atom) (indent : Nat) (split : Bool) (p : Pen) : Pen :=
  let cs := (atomText a).toList
  match a with
  | .bytes _ => (p.word "!!binary").lines indent cs
  | _ => p.text (atomTag a) indent split cs

def anchor (n : Option Nat) (p : Pen) : Pen :=
  n.elim p fun n => p.word ("&" ++ Draft.anchorName n)

def aliasMark (n : Nat) (p : Pen) : Pen :=
  p.word ("*" ++ Draft.anchorName n)

def leaf (d : Draft) (indent : Nat) (split : Bool) (p : Pen) : Pen :=
  match d with
  | .scalar n a => (p.anchor n).atom a indent split
  | .alias n => p.aliasMark n
  | _ => p

def key (d : Draft) (indent : Nat) (p : Pen) : Pen :=
  let p := p.indentTo indent
  if isSimpleKey d then (p.leaf d (indent + 2) false).mark ':' false false false
  else
    let p := (p.mark '?' true false true).leaf d (indent + 2) true
    (p.indentTo indent).mark ':' true false true

mutual

/-- Write a draft. The indentation of the collection around it is absent at the top; the items of a
list behind the key of a table are not indented further than that key. -/
def draft (behindKey : Bool) (around : Option Nat) (p : Pen) : Draft → Pen
  | .sequence n [] => ((p.anchor n).mark '[' true true false).mark ']' false false false
  | .sequence n items =>
    let p := p.anchor n
    let indent := around.elim 0 fun n => if behindKey && !p.fresh then n else n + 2
    listItems indent p items
  | .mapping n isSet entries =>
    let p := p.anchor n
    let p := if isSet then p.word "!!set" else p
    match entries with
    | [] => (p.mark '\x7b' true true false).mark '\x7d' false false false
    | entries => tableEntries (around.elim 0 (· + 2)) p entries
  | d => p.leaf d (around.elim 2 (· + 2)) true

def listItems (indent : Nat) (p : Pen) : List Draft → Pen
  | [] => p
  | d :: ds =>
    listItems indent (draft false (some indent) ((p.indentTo indent).mark '-' true false true) d) ds

def tableEntries (indent : Nat) (p : Pen) : List (Draft × Draft) → Pen
  | [] => p
  | (k, d) :: es => tableEntries indent (draft true (some indent) (p.key k indent) d) es

end

end Pen

/-- The text of a value of which some parts are shared. -/
def writeShared (v : Value) (shared : Sharing) : String :=
  ((Pen.draft false none {} (Draft.ofShared v shared)).indentTo 0).written

def write (v : Value) : String :=
  writeShared v []

end OptimalAssignment.Yaml
