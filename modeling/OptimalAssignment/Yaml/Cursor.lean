/-!
A place in a text: the characters that are left, and the line and column reached. Five characters
break lines; a carriage return and the line feed after it are one break.
-/
namespace OptimalAssignment.Yaml

inductive YamlFault where
  /-- The text breaks the rules of the notation, or uses what is not supported. -/
  | malformed
  /-- A number, a moment or a character has no such value. -/
  | noSuchValue
  /-- A word is no truth value. -/
  | noSuchWord
  /-- A number has no characters. -/
  | noCharacters
  /-- A text is no moment. -/
  | noMoment
  /-- A number is too large for what it is used for. -/
  | outOfReach
  /-- A collection stands where the text of a moment is wanted. -/
  | noText
  /-- Collections lie too deep within each other. -/
  | tooDeep
deriving Repr, DecidableEq

def isBreak (c : Char) : Bool :=
  c == '\n' || c == '\r' || c == '\u0085' || c == '\u2028' || c == '\u2029'

def endsLine (c : Option Char) : Bool :=
  c.all isBreak

/-- Whether a line or a word before a space ends before a character. -/
def endsName (c : Option Char) : Bool :=
  c.all fun c => c == ' ' || isBreak c

/-- Whether a line or a word before a space or a tab ends before a character. -/
def endsWord (c : Option Char) : Bool :=
  c.all fun c => c == ' ' || c == '\t' || isBreak c

structure Cursor where
  rest : List Char
  line : Nat := 0
  column : Nat := 0
  index : Nat := 0

namespace Cursor

def peek? (c : Cursor) (k : Nat) : Option Char :=
  c.rest[k]?

def isAt (c : Cursor) (ch : Char) : Bool :=
  c.rest.head? == some ch

/-- The place one character further on. A byte order mark has no width. -/
def advance (c : Cursor) : Cursor :=
  match c.rest with
  | [] => c
  | ch :: rest =>
    if isBreak ch && !(ch == '\r' && rest.head? == some '\n') then
      ⟨rest, c.line + 1, 0, c.index + 1⟩
    else
      ⟨rest, c.line, if ch == '\uFEFF' then c.column else c.column + 1, c.index + 1⟩

def advanceBy : Nat → Cursor → Cursor
  | 0, c => c
  | n + 1, c => advanceBy n c.advance

/-- The characters up to the first one that a test refuses, and the place there. -/
def takeWhile (p : Char → Bool) (c : Cursor) : List Char × Cursor :=
  let taken := c.rest.takeWhile p
  (taken, advanceBy taken.length c)

def skipWhile (p : Char → Bool) (c : Cursor) : Cursor :=
  (c.takeWhile p).2

def skipSpaces (c : Cursor) : Cursor :=
  c.skipWhile (· == ' ')

/-- The place at the end of a comment, if one begins here. -/
def skipComment (c : Cursor) : Cursor :=
  if c.isAt '#' then c.skipWhile (!isBreak ·) else c

/-- The break at a place, and the place behind it. Breaks count as line feeds, but for those that
separate lines and paragraphs. -/
def lineBreak? (c : Cursor) : Option (Char × Cursor) :=
  match c.rest with
  | '\r' :: '\n' :: _ => some ('\n', advanceBy 2 c)
  | ch :: _ =>
    if isBreak ch then
      some (if ch == '\u2028' || ch == '\u2029' then ch else '\n', c.advance)
    else none
  | [] => none

/-- Whether three given characters and the end of a word come next. -/
def isMarker (mark : Char) (c : Cursor) : Bool :=
  c.rest.take 3 == [mark, mark, mark] && endsWord (c.peek? 3)

def atDocumentEdge (c : Cursor) : Bool :=
  c.isMarker '-' || c.isMarker '.'

end Cursor

end OptimalAssignment.Yaml
