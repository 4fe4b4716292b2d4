import OptimalAssignment.Yaml.Token

/-!
From text to tokens. A key that is not announced is only known by the colon behind it; so the lexer
remembers where a key may have begun, and puts the tokens that open it in there. Indentation opens
and closes collections outside brackets. A fault leaves the tokens before it that are settled: those
before the first place where a key may still have begun.
-/
namespace OptimalAssignment.Yaml

/-- A place where a key may have begun. -/
structure KeyStart where
  /-- The number of brackets open at it. -/
  level : Nat
  /-- The number of tokens before it. -/
  position : Nat
  /-- Whether only a key can stand at it. -/
  required : Bool
  index : Nat
  line : Nat
  column : Nat

structure Lexer where
  cursor : Cursor
  tokens : List Token := []
  /-- The number of brackets open. -/
  level : Nat := 0
  indent : Int := -1
  /-- The indentations of the collections around the current one. -/
  outer : List Int := []
  /-- Whether a key may begin here. -/
  mayKey : Bool := true
  starts : List KeyStart := []
  finished : Bool := false

namespace Lexer

def emit (t : Token) (l : Lexer) : Lexer :=
  { l with tokens := l.tokens ++ [t] }

/-- The state with a token put in before the one at a position. -/
def insertAt (position : Nat) (t : Token) (l : Lexer) : Lexer :=
  { l with tokens := l.tokens.take position ++ t :: l.tokens.drop position }

/-- Emit a mark of some characters and go on behind it. -/
def mark (t : Token) (width : Nat) (l : Lexer) : Lexer :=
  emit t { l with cursor := l.cursor.advanceBy width }

/-- Go behind blanks, comments and breaks. After a break a key may begin. -/
def toNext : Nat → Lexer → Lexer
  | 0, l => l
  | fuel + 1, l =>
    match l.cursor.skipSpaces.skipComment.lineBreak? with
    | some (_, cursor) =>
      toNext fuel { l with cursor, mayKey := l.mayKey || l.level == 0 }
    | none => { l with cursor := l.cursor.skipSpaces.skipComment }

/-- Whether a place is on another line or too far back for a key. -/
def isStale (l : Lexer) (s : KeyStart) : Bool :=
  s.line != l.cursor.line || 1024 < l.cursor.index - s.index

/-- Forget places where no key can begin any more; a place that needs its key is a fault then. -/
def dropStale (l : Lexer) : Except YamlFault Lexer :=
  if l.starts.any fun s => l.isStale s && s.required then .error .malformed
  else .ok { l with starts := l.starts.filter (!l.isStale ·) }

/-- The tokens before the first place where a key may still have begun. -/
def settled (l : Lexer) : List Token :=
  let places := (l.starts.filter (!l.isStale ·)).map (·.position)
  l.tokens.take (places.foldl min l.tokens.length)

/-- Close collections that are indented further than a column. -/
def unwind (column : Int) : List Int → Lexer → Lexer
  | [], l => l
  | outer :: rest, l =>
    if column < l.indent then
      unwind column rest (emit .blockEnd { l with indent := outer, outer := rest })
    else l

/-- Close collections that end before a column, outside brackets. -/
def unwindTo (column : Int) (l : Lexer) : Lexer :=
  if l.level = 0 then unwind column l.outer l else l

/-- Forget the place where a key may have begun between the current brackets. -/
def dropStart (l : Lexer) : Except YamlFault Lexer :=
  if l.starts.any fun s => s.level == l.level && s.required then .error .malformed
  else .ok { l with starts := l.starts.filter (·.level != l.level) }

def saveStart (l : Lexer) : Except YamlFault Lexer :=
  if l.mayKey then do
    let l ← l.dropStart
    let c := l.cursor
    return { l with starts := ⟨l.level, l.tokens.length,
      l.level == 0 && l.indent == (c.column : Int),
      c.index, c.line, c.column⟩ :: l.starts }
  else .ok l

/-- Open a collection at the current column, if that is further in. -/
def openAt (column : Nat) (t : Token) (position : Nat) (l : Lexer) : Lexer :=
  if l.indent < (column : Int) then
    insertAt position t { l with indent := column, outer := l.indent :: l.outer }
  else l

def finish (l : Lexer) : Except YamlFault Lexer := do
  let l ← (l.unwindTo (-1)).dropStart
  return { emit .streamEnd l with finished := true }

def directive (l : Lexer) : Except YamlFault Lexer := do
  let l ← (l.unwindTo (-1)).dropStart
  let (token, cursor) ← readDirective l.cursor
  return emit token { l with cursor, mayKey := false }

def documentEdge (t : Token) (l : Lexer) : Except YamlFault Lexer := do
  let l ← (l.unwindTo (-1)).dropStart
  return mark t 3 { l with mayKey := false }

def openBracket (t : Token) (l : Lexer) : Except YamlFault Lexer := do
  let l ← l.saveStart
  return mark t 1 { l with level := l.level + 1, mayKey := true }

def closeBracket (t : Token) (l : Lexer) : Except YamlFault Lexer := do
  let l ← l.dropStart
  if l.level = 0 then throw .malformed
  return mark t 1 { l with level := l.level - 1, mayKey := false }

def comma (l : Lexer) : Except YamlFault Lexer := do
  let l ← { l with mayKey := true }.dropStart
  return mark .flowEntry 1 l

/-- Outside brackets, open a collection here, which needs a place where a key may begin. -/
def openHere (t : Token) (l : Lexer) : Except YamlFault Lexer :=
  if l.level ≠ 0 then .ok l
  else if l.mayKey then .ok (l.openAt l.cursor.column t l.tokens.length)
  else .error .malformed

def entry (l : Lexer) : Except YamlFault Lexer := do
  let l ← l.openHere .blockSequenceStart
  let l ← { l with mayKey := true }.dropStart
  return mark .blockEntry 1 l

/-- The mark of a key. -/
def announcedKey (l : Lexer) : Except YamlFault Lexer := do
  let l ← l.openHere .blockMappingStart
  let l ← { l with mayKey := l.level == 0 }.dropStart
  return mark .key 1 l

/-- The mark of a value. If a key may have begun before it, that was a key. -/
def value (l : Lexer) : Except YamlFault Lexer := do
  match l.starts.find? (·.level == l.level) with
  | some s =>
    let l := { l with starts := l.starts.filter (·.level != l.level) }
    let l := l.insertAt s.position .key
    let l := if l.level = 0 then l.openAt s.column .blockMappingStart s.position else l
    return mark .value 1 { l with mayKey := false }
  | none =>
    let l ← l.openHere .blockMappingStart
    let l ← { l with mayKey := l.level == 0 }.dropStart
    return mark .value 1 l

/-- A name, a tag or a scalar that a key may begin with. -/
def word (read : Cursor → ReadToken) (l : Lexer) : Except YamlFault Lexer := do
  let l ← l.saveStart
  let (token, cursor) ← read l.cursor
  return emit token { l with cursor, mayKey := false }

def quoted (double : Bool) (l : Lexer) : Except YamlFault Lexer :=
  l.word fun c => do
    let (text, c) ← quotedScalar double c
    return (.scalar (String.ofList text) false, c)

def block (fold : Bool) (l : Lexer) : Except YamlFault Lexer := do
  let l ← { l with mayKey := true }.dropStart
  let (text, cursor) ← blockScalar fold l.indent l.cursor
  return emit (.scalar (String.ofList text) false) { l with cursor }

def plain (l : Lexer) : Except YamlFault Lexer := do
  let l ← l.saveStart
  let (text, cursor, broke) := plainScalar (l.level != 0) (l.indent + 1) l.cursor
  return emit (.scalar (String.ofList text) true) { l with cursor, mayKey := broke }

def mayPlain (inFlow : Bool) (c : Cursor) : Bool :=
  match c.rest with
  | [] => false
  | ch :: rest =>
    !(endsWord (some ch) || "-?:,[]\x7b\x7d#&*!|>'\"%@`".contains ch)
      || (!endsWord rest.head? && (ch == '-' || (!inFlow && (ch == '?' || ch == ':'))))

def step (l : Lexer) : Except YamlFault Lexer := do
  let l := toNext (l.cursor.rest.length + 1) l
  let l ← l.dropStale
  let l := l.unwindTo l.cursor.column
  let c := l.cursor
  let inFlow := l.level != 0
  let spaced := inFlow || endsWord (c.peek? 1)
  match c.rest with
  | [] => l.finish
  | ch :: _ =>
    if ch == '%' && c.column == 0 then l.directive
    else if c.column == 0 && c.isMarker '-' then l.documentEdge .documentStart
    else if c.column == 0 && c.isMarker '.' then l.documentEdge .documentEnd
    else if ch == '[' then l.openBracket .flowSequenceStart
    else if ch == '\x7b' then l.openBracket .flowMappingStart
    else if ch == ']' then l.closeBracket .flowSequenceEnd
    else if ch == '\x7d' then l.closeBracket .flowMappingEnd
    else if ch == ',' then l.comma
    else if ch == '-' && endsWord (c.peek? 1) then l.entry
    else if ch == '?' && spaced then l.announcedKey
    else if ch == ':' && spaced then l.value
    else if ch == '*' then l.word fun c => (anchorName c).map fun (name, c) => (.alias name, c)
    else if ch == '&' then l.word fun c => (anchorName c).map fun (name, c) => (.anchor name, c)
    else if ch == '!' then l.word readTag
    else if ch == '|' && !inFlow then l.block false
    else if ch == '>' && !inFlow then l.block true
    else if ch == '\'' then l.quoted false
    else if ch == '"' then l.quoted true
    else if mayPlain inFlow c then l.plain
    else throw .malformed

/-- Read tokens until the text ends or a fault comes up. -/
def run : Nat → Lexer → List Token × Option YamlFault
  | 0, l => (l.tokens, none)
  | fuel + 1, l =>
    if l.finished then (l.tokens, none)
    else
      match l.step with
      | .ok next => run fuel next
      | .error fault => (l.settled, some fault)

end Lexer

def isAllowed (c : Char) : Bool :=
  let n := Text.code c
  n == 9 || n == 10 || n == 13 || (0x20 ≤ n && n ≤ 0x7E) || n == 0x85 || (0xA0 ≤ n && n ≤ 0xD7FF)
    || (0xE000 ≤ n && n ≤ 0xFFFD) || 0x10000 ≤ n

/-- The tokens of a text up to its end, or up to a fault. A byte order mark at its start does not
count. -/
def tokens (s : String) : List Token × Option YamlFault :=
  let cs := s.toList
  if cs.all isAllowed then
    let cursor : Cursor := { rest := cs }
    let cursor := if cursor.isAt '\uFEFF' then cursor.advance else cursor
    Lexer.run (cs.length + 2) { cursor }
  else ([], some .malformed)

end OptimalAssignment.Yaml
