import OptimalAssignment.Text.Half
import OptimalAssignment.Yaml.Cursor

/-!
The texts of scalars. A plain scalar ends where its surroundings begin; quoted scalars end at their
quote, and block scalars where lines are indented less. Inside plain and quoted scalars, and in
folded blocks, a single break becomes a space and further breaks are kept.
-/
namespace OptimalAssignment.Yaml

abbrev Read := Except YamlFault (List Char × Cursor)

/-- A break and the breaks after it as they count within a scalar. -/
def folded (first : Char) (others : List Char) : List Char :=
  if first != '\n' then first :: others else if others.isEmpty then [' '] else others

/-! ### Plain scalars -/

def isFlowMark (c : Char) : Bool :=
  c == ',' || c == '[' || c == ']' || c == '\x7b' || c == '\x7d'

/-- How many characters a plain scalar has before the next blank or mark. -/
def plainLength (inFlow : Bool) : List Char → Nat
  | [] => 0
  | c :: rest =>
    let next := rest.head?
    if endsWord (some c) || (c == ':' && (endsWord next || inFlow && next.any isFlowMark))
        || (inFlow && (isFlowMark c || c == '?')) then 0
    else plainLength inFlow rest + 1

/-- The breaks after the first one of a plain scalar; nothing if a document begins or ends. -/
def plainBreaks : Nat → List Char → Cursor → Option (List Char) × Cursor
  | 0, breaks, c => (some breaks, c)
  | fuel + 1, breaks, c =>
    if c.isAt ' ' then plainBreaks fuel breaks c.advance
    else
      match c.lineBreak? with
      | none => (some breaks, c)
      | some (b, c) =>
        if c.atDocumentEdge then (none, c) else plainBreaks fuel (breaks ++ [b]) c

/-- Blanks within a plain scalar as they count, the place behind them, and whether there was a
break. -/
def plainBlanks (c : Cursor) : List Char × Cursor × Bool :=
  let (spaces, c) := c.takeWhile (· == ' ')
  match c.lineBreak? with
  | none => (spaces, c, false)
  | some (b, c) =>
    if c.atDocumentEdge then ([], c, true)
    else
      match plainBreaks c.rest.length [] c with
      | (none, c) => ([], c, true)
      | (some breaks, c) => (folded b breaks, c, true)

/-- A plain scalar, word after word. The first result is its text; the last one says whether the
last blanks hold a break. -/
def plainFrom (inFlow : Bool) (indent : Int) :
    Nat → List Char → List Char → Bool → Cursor → List Char × Cursor × Bool
  | 0, text, _, broke, c => (text, c, broke)
  | fuel + 1, text, blanks, broke, c =>
    let n := plainLength inFlow c.rest
    if c.isAt '#' || n == 0 then (text, c, broke)
    else
      let text := text ++ blanks ++ c.rest.take n
      let (blanks, c, broke) := plainBlanks (c.advanceBy n)
      if blanks.isEmpty || c.isAt '#' || (!inFlow && (c.column : Int) < indent) then
        (text, c, broke)
      else plainFrom inFlow indent fuel text blanks broke c

/-- The plain scalar at a place; lines after its first have to be indented by a number. -/
def plainScalar (inFlow : Bool) (indent : Int) (c : Cursor) : List Char × Cursor × Bool :=
  plainFrom inFlow indent c.rest.length [] [] false c

/-! ### Quoted scalars -/

def hexNumber (cs : List Char) : Nat :=
  cs.foldl (fun n c =>
    16 * n + (if c.isDigit then c.toNat - 48 else c.toLower.toNat - 87)) 0

def isHex (c : Char) : Bool :=
  c.isDigit || ('a' ≤ c && c ≤ 'f') || ('A' ≤ c && c ≤ 'F')

def escapeOf? (c : Char) : Option Char :=
  [('0', '\x00'), ('a', '\x07'), ('b', '\x08'), ('t', '\t'), ('\t', '\t'), ('n', '\n'),
    ('v', '\x0b'), ('f', '\x0c'), ('r', '\r'), ('e', '\x1b'), (' ', ' '), ('"', '"'),
    ('\\', '\\'), ('/', '/'), ('N', '\u0085'), ('_', '\u00a0'), ('L', '\u2028'),
    ('P', '\u2029')].lookup c

/-- How many hexadecimal digits follow a letter after a backslash. -/
def escapeWidth? (c : Char) : Option Nat :=
  [('x', 2), ('u', 4), ('U', 8)].lookup c

def quotedBreaks : Nat → List Char → Cursor → Read
  | 0, breaks, c => .ok (breaks, c)
  | fuel + 1, breaks, c =>
    if c.atDocumentEdge then .error .malformed
    else
      let c := c.skipWhile fun ch => ch == ' ' || ch == '\t'
      match c.lineBreak? with
      | some (b, c) => quotedBreaks fuel (breaks ++ [b]) c
      | none => .ok (breaks, c)

/-- What stands behind a backslash. -/
def escaped (c : Cursor) : Read :=
  match c.rest with
  | [] => .error .malformed
  | ch :: rest =>
    match escapeOf? ch, escapeWidth? ch with
    | some e, _ => .ok ([e], c.advance)
    | none, some width =>
      let digits := rest.take width
      if digits.length = width ∧ digits.all isHex then
        let n := hexNumber digits
        if n < 0x110000 then .ok ([Text.ofCode n], c.advanceBy (width + 1))
        else .error (if n < 0x80000000 then .noSuchValue else .outOfReach)
      else .error .malformed
    | none, none =>
      match c.lineBreak? with
      | some (_, c) => quotedBreaks (c.rest.length + 1) [] c
      | none => .error .malformed

/-- The characters of a quoted scalar up to the next blank or its end. -/
def quotedWord (double : Bool) : Nat → List Char → Cursor → Read
  | 0, text, c => .ok (text, c)
  | fuel + 1, text, c =>
    match c.rest with
    | [] => .ok (text, c)
    | ch :: rest =>
      if !double && ch == '\'' && rest.head? == some '\'' then
        quotedWord double fuel (text ++ ['\'']) (c.advanceBy 2)
      else if ch == (if double then '"' else '\'') || endsWord (some ch) then .ok (text, c)
      else if double && ch == '\\' then do
        let (e, c) ← escaped c.advance
        quotedWord double fuel (text ++ e) c
      else quotedWord double fuel (text ++ [ch]) c.advance

/-- The blanks of a quoted scalar as they count. -/
def quotedBlanks (c : Cursor) : Read := do
  let (blanks, c) := c.takeWhile fun ch => ch == ' ' || ch == '\t'
  match c.rest with
  | [] => throw .malformed
  | _ =>
    match c.lineBreak? with
    | none => return (blanks, c)
    | some (b, c) =>
      let (breaks, c) ← quotedBreaks (c.rest.length + 1) [] c
      return (folded b breaks, c)

/-- The words and blanks of a quoted scalar up to its end. -/
def quotedFrom (double : Bool) : Nat → List Char → Cursor → Read
  | 0, _, _ => .error .malformed
  | fuel + 1, text, c => do
    let (word, c) ← quotedWord double (c.rest.length + 1) [] c
    let text := text ++ word
    if c.isAt (if double then '"' else '\'') then return (text, c.advance)
    let (blanks, c) ← quotedBlanks c
    quotedFrom double fuel (text ++ blanks) c

def quotedScalar (double : Bool) (c : Cursor) : Read :=
  quotedFrom double (c.rest.length + 1) [] c.advance

/-! ### Block scalars -/

/-- What happens to the breaks at the end of a block: they go, one stays, or all stay. -/
inductive Chomping where
  | strip
  | clip
  | keep
deriving Repr, DecidableEq

def chomping? (c : Option Char) : Option Chomping :=
  if c == some '+' then some .keep else if c == some '-' then some .strip else none

def indentDigit? (c : Option Char) : Option Nat :=
  c.bind fun c => if c.isDigit then some (c.toNat - 48) else none

/-- The marks at the head of a block: chomping and indentation, in any order. -/
def blockHead (c : Cursor) : Except YamlFault (Chomping × Option Nat × Cursor) := do
  let (chomping, indent, c) :=
    match chomping? (c.peek? 0) with
    | some ch =>
      match indentDigit? (c.peek? 1) with
      | some n => (ch, some n, c.advanceBy 2)
      | none => (ch, none, c.advance)
    | none =>
      match indentDigit? (c.peek? 0) with
      | some n =>
        match chomping? (c.peek? 1) with
        | some ch => (ch, some n, c.advanceBy 2)
        | none => (.clip, some n, c.advance)
      | none => (.clip, none, c)
  if indent == some 0 || !endsName (c.peek? 0) then throw .malformed
  let c := c.skipSpaces.skipComment
  if !endsLine (c.peek? 0) then throw .malformed
  return (chomping, indent, (c.lineBreak?.map (·.2)).getD c)

/-- Blank lines at the start of a block, and the widest indentation among them and of the line
after. -/
def leadingBreaks : Nat → List Char → Nat → Cursor → List Char × Nat × Cursor
  | 0, breaks, widest, c => (breaks, widest, c)
  | fuel + 1, breaks, widest, c =>
    if c.isAt ' ' then
      let c := c.advance
      leadingBreaks fuel breaks (max widest c.column) c
    else
      match c.lineBreak? with
      | some (b, c) => leadingBreaks fuel (breaks ++ [b]) widest c
      | none => (breaks, widest, c)

def skipIndent (indent : Nat) (c : Cursor) : Cursor :=
  let spaces := (c.rest.takeWhile (· == ' ')).length
  c.advanceBy (min spaces (indent - c.column))

/-- Blank lines within a block of a known indentation. -/
def blockBreaks (indent : Nat) : Nat → List Char → Cursor → List Char × Cursor
  | 0, breaks, c => (breaks, c)
  | fuel + 1, breaks, c =>
    let c := skipIndent indent c
    match c.lineBreak? with
    | some (b, c) => blockBreaks indent fuel (breaks ++ [b]) c
    | none => (breaks, c)

/-- Whether a line of a block may join with its neighbours: it does not begin with a blank. -/
def joins (c : Cursor) : Bool :=
  (c.peek? 0).all fun ch => ch != ' ' && ch != '\t'

/-- The lines of a block. The results are its text, the break after its last line if there is one,
and the blank lines after that. -/
def blockLines (fold : Bool) (indent : Nat) :
    Nat → List Char → List Char → Cursor → List Char × List Char × List Char × Cursor
  | 0, text, breaks, c => (text, [], breaks, c)
  | fuel + 1, text, breaks, c =>
    let joined := joins c
    let (line, c) := c.takeWhile (!isBreak ·)
    let text := text ++ breaks ++ line
    let (last, c) :=
      match c.lineBreak? with
      | some (b, c) => ([b], c)
      | none => ([], c)
    let (breaks, c) := blockBreaks indent (c.rest.length + 1) [] c
    if c.column = indent ∧ !c.rest.isEmpty then
      let text :=
        if fold && last == ['\n'] && joined && joins c then
          if breaks.isEmpty then text ++ [' '] else text
        else text ++ last
      blockLines fold indent fuel text breaks c
    else (text, last, breaks, c)

/-- The block scalar at a place within a collection of a given indentation. -/
def blockScalar (fold : Bool) (parent : Int) (c : Cursor) : Read := do
  let (chomping, given, c) ← blockHead c.advance
  let least := (max (parent + 1) 1).toNat
  let (breaks, indent, c) :=
    match given with
    | none =>
      let (breaks, widest, c) := leadingBreaks (c.rest.length + 1) [] 0 c
      (breaks, max least widest, c)
    | some n =>
      let indent := least + n - 1
      let (breaks, c) := blockBreaks indent (c.rest.length + 1) [] c
      (breaks, indent, c)
  let (text, last, breaks, c) :=
    if c.column = indent ∧ !c.rest.isEmpty then
      blockLines fold indent (c.rest.length + 1) [] breaks c
    else ([], [], breaks, c)
  return (text ++ (if chomping = .strip then [] else last)
    ++ (if chomping = .keep then breaks else []), c)

end OptimalAssignment.Yaml
