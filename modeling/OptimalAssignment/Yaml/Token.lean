import OptimalAssignment.Decimal.Read
import OptimalAssignment.Yaml.Scalar

/-!
Tokens: the marks, names and scalars that a text is made of, and the places where indented
collections begin and end.
-/
namespace OptimalAssignment.Yaml

inductive Token where
  | streamEnd
  | version (major : Nat)
  | handle (name : String) (expansion : String)
  | otherDirective
  | documentStart
  | documentEnd
  | blockSequenceStart
  | blockMappingStart
  | blockEnd
  | flowSequenceStart
  | flowSequenceEnd
  | flowMappingStart
  | flowMappingEnd
  | flowEntry
  | blockEntry
  | key
  | value
  | alias (name : String)
  | anchor (name : String)
  | tag (handle : Option String) (suffix : String)
  | scalar (text : String) (plain : Bool)
deriving Repr, DecidableEq, Inhabited

abbrev ReadToken := Except YamlFault (Token × Cursor)

/-- Whether a character may stand in the name of an anchor, a handle or a directive. -/
def isNameChar (c : Char) : Bool :=
  c.isAlphanum || c == '-' || c == '_'

/-- The name of an anchor or an alias behind its mark. -/
def anchorName (c : Cursor) : Except YamlFault (String × Cursor) :=
  let (name, c) := c.advance.takeWhile isNameChar
  if name.isEmpty then .error .malformed
  else if endsWord (c.peek? 0) || (c.peek? 0).any fun ch => "?:,]\x7d%@`".contains ch then
    .ok (String.ofList name, c)
  else .error .malformed

def isUriChar (c : Char) : Bool :=
  c.isAlphanum || "-;/?:@&=+$,_.!~*'()[]".contains c

/-- The characters of a part of an address; bytes may be written as two digits behind a percent
sign. -/
def uriBytes : Nat → List UInt8 → Cursor → Except YamlFault (List UInt8 × Cursor)
  | 0, bytes, c => .ok (bytes, c)
  | fuel + 1, bytes, c =>
    match c.rest with
    | '%' :: a :: b :: _ =>
      if isHex a && isHex b then
        uriBytes fuel (bytes ++ [UInt8.ofNat (hexNumber [a, b])]) (c.advanceBy 3)
      else .error .malformed
    | ch :: _ =>
      if ch == '%' then .error .malformed
      else if isUriChar ch then
        uriBytes fuel (bytes ++ (String.singleton ch).toUTF8.toList) c.advance
      else .ok (bytes, c)
    | [] => .ok (bytes, c)

/-- An address; it has at least one character. -/
def uri (c : Cursor) : Except YamlFault (String × Cursor) := do
  let (bytes, c) ← uriBytes c.rest.length [] c
  match String.fromUTF8? ⟨bytes.toArray⟩ with
  | some s => if s.isEmpty then throw .malformed else return (s, c)
  | none => throw .malformed

/-- A handle: an exclamation mark, or a name between two of them. -/
def tagHandle (c : Cursor) : Except YamlFault (String × Cursor) :=
  if !c.isAt '!' then .error .malformed
  else if (c.peek? 1) == some ' ' then .ok ("!", c.advance)
  else
    let (name, after) := c.advance.takeWhile isNameChar
    if after.isAt '!' then .ok ("!" ++ String.ofList name ++ "!", after.advance)
    else .error .malformed

/-- Whether a second exclamation mark comes before the end of the word. -/
def hasHandle : List Char → Bool
  | [] => false
  | c :: rest => if endsName (some c) then false else c == '!' || hasHandle rest

def readTag (c : Cursor) : ReadToken := do
  let (token, c) ←
    if c.peek? 1 == some '<' then do
      let (suffix, c) ← uri (c.advanceBy 2)
      if c.isAt '>' then Except.ok (Token.tag none suffix, c.advance) else .error .malformed
    else if endsWord (c.peek? 1) then .ok (.tag none "!", c.advance)
    else do
      let (handle, c) ←
        if hasHandle (c.rest.drop 1) then tagHandle c else Except.ok ("!", c.advance)
      let (suffix, c) ← uri c
      .ok (.tag (some handle) suffix, c)
  if endsName (c.peek? 0) then return (token, c) else throw .malformed

/-- The rest of the line of a directive: blanks and perhaps a comment. -/
def directiveEnd (c : Cursor) : Except YamlFault Cursor :=
  let c := c.skipSpaces.skipComment
  if endsLine (c.peek? 0) then .ok ((c.lineBreak?.map (·.2)).getD c) else .error .malformed

def digits (c : Cursor) : Except YamlFault (Nat × Cursor) :=
  let (ds, c) := c.takeWhile Char.isDigit
  if ds.isEmpty then .error .malformed
  else if Decimal.digitLimit < ds.length then .error .noSuchValue
  else .ok (ds.foldl (fun n d => 10 * n + (d.toNat - 48)) 0, c)

def readDirective (c : Cursor) : ReadToken := do
  let (name, c) := c.advance.takeWhile isNameChar
  if name.isEmpty || !endsName (c.peek? 0) then throw .malformed
  let name := String.ofList name
  let (token, c) ←
    if name == "YAML" then do
      let (major, c) ← digits c.skipSpaces
      if !c.isAt '.' then throw YamlFault.malformed
      let (_, c) ← digits c.advance
      if !endsName (c.peek? 0) then throw .malformed
      pure (Token.version major, c)
    else if name == "TAG" then do
      let (handle, c) ← tagHandle c.skipSpaces
      if !c.isAt ' ' then throw .malformed
      let (expansion, c) ← uri c.skipSpaces
      if !endsName (c.peek? 0) then throw .malformed
      pure (.handle handle expansion, c)
    else pure (.otherDirective, c.skipWhile (!isBreak ·))
  return (token, ← directiveEnd c)

end OptimalAssignment.Yaml
