import OptimalAssignment.Text.Literal
import OptimalAssignment.Yaml.Pen
import OptimalAssignment.Yaml.Tag

/-!
How texts are written: plain where that reads back, between single quotes where that shows all
characters, and between double quotes with escapes elsewhere. Long lines are cut at single spaces.
-/
namespace OptimalAssignment.Yaml

inductive Style where
  | plain
  | single
  | double
deriving Repr, DecidableEq

def hasNeighbours (p q : Char → Bool) : List Char → Bool
  | a :: b :: rest => p a && q b || hasNeighbours p q (b :: rest)
  | _ => false

/-- Whether a text holds a mark that would end or change a plain scalar. -/
def holdsMark (cs : List Char) : Bool :=
  let blank (c : Char) : Bool := endsWord (some c)
  let second := (cs.drop 1).head?
  cs.take 3 == ['-', '-', '-'] || cs.take 3 == ['.', '.', '.']
    || cs.head?.any (fun c => "#,[]\x7b\x7d&*!|>'\"%@`".contains c)
    || cs.head?.any (fun c => "?:-".contains c) && endsWord second
    || hasNeighbours (· == ':') blank (cs.drop 1)
    || (1 < cs.length && cs.getLast? == some ':')
    || hasNeighbours blank (· == '#') cs

def hasLines (cs : List Char) : Bool :=
  cs.contains '\n'

/-- Whether a text has characters that only escapes can show. -/
def needsEscapes (cs : List Char) : Bool :=
  cs.any fun c => c != '\n' && !(' ' ≤ c && c ≤ '~')

/-- Whether a text has spaces beside breaks. -/
def hasRagged (cs : List Char) : Bool :=
  hasNeighbours (· == ' ') (· == '\n') cs || hasNeighbours (· == '\n') (· == ' ') cs

/-- Whether a text begins or ends with a space or a break. -/
def hasMargin (cs : List Char) : Bool :=
  let edge (c : Option Char) : Bool := c == some ' ' || c == some '\n'
  edge cs.head? || edge cs.getLast?

/-- The style of a text that stands for a value with a given tag. -/
def styleOf (t : Tag) (cs : List Char) : Style :=
  let single := !(needsEscapes cs || hasRagged cs)
  bif Tag.ofPlain (String.ofList cs) == t && single && !hasMargin cs && !hasLines cs
      && !holdsMark cs then .plain
  else bif single then .single
  else .double

/-- A text cut into runs of spaces, of breaks, and of other characters. -/
def runs : List Char → List (List Char)
  | [] => []
  | c :: rest =>
    match runs rest with
    | (d :: run) :: others =>
      if kind c == kind d then (c :: d :: run) :: others else [c] :: (d :: run) :: others
    | others => [c] :: others
where
  /-- What kind of run a character belongs to. -/
  kind (c : Char) : Nat :=
    if c == ' ' then 0 else if c == '\n' then 1 else 2

namespace Pen

/-- Write a run of a plain scalar; a single space may become a new line. -/
def plainRun (indent : Nat) (split : Bool) (p : Pen) (run : List Char) : Pen :=
  if run == [' '] && width < p.column && split then (p.indentTo indent).inLine else p.put run

def plain (indent : Nat) (split : Bool) (cs : List Char) (p : Pen) : Pen :=
  if cs.isEmpty then p
  else
    let p := if p.spaced then p else p.put [' ']
    (runs cs).foldl (plainRun indent split) p.inLine

/-- Write a run between single quotes: a quote is written twice, and a run of breaks with one more
break. The flag says whether the run is the first or the last one. -/
def singleRun (indent : Nat) (split edge : Bool) (run : List Char) (p : Pen) : Pen :=
  match run with
  | '\n' :: _ => (run.foldl (fun p _ => p.breakLine) p.breakLine).indentTo indent
  | _ =>
    if run == [' '] && width < p.column && split && !edge then p.indentTo indent
    else p.put (run.flatMap fun c => if c == '\'' then ['\'', '\''] else [c])

def singleRuns (indent : Nat) (split : Bool) : Bool → List (List Char) → Pen → Pen
  | _, [], p => p
  | first, run :: rest, p =>
    singleRuns indent split false rest (singleRun indent split (first || rest.isEmpty) run p)

def single (indent : Nat) (split : Bool) (cs : List Char) (p : Pen) : Pen :=
  let p := singleRuns indent split true (runs cs) (p.mark '\'' true false false)
  p.mark '\'' false false false

def escapeLetter? (c : Char) : Option Char :=
  [('\x00', '0'), ('\x07', 'a'), ('\x08', 'b'), ('\t', 't'), ('\n', 'n'), ('\x0b', 'v'),
    ('\x0c', 'f'), ('\r', 'r'), ('\x1b', 'e'), ('"', '"'), ('\\', '\\'), ('\u0085', 'N'),
    ('\u00a0', '_'), ('\u2028', 'L'), ('\u2029', 'P')].lookup c

def escapeText (c : Char) : List Char :=
  let n := Text.code c
  let digits (width : Nat) : List Char := ((Text.hexPadded width n).map Char.toUpper).toList
  match escapeLetter? c with
  | some letter => ['\\', letter]
  | none =>
    if n ≤ 0xFF then ['\\', 'x'] ++ digits 2
    else if n ≤ 0xFFFF then ['\\', 'u'] ++ digits 4
    else ['\\', 'U'] ++ digits 8

def isEscaped (c : Char) : Bool :=
  c == '"' || c == '\\' || !(' ' ≤ c && c ≤ '~')

/-- Write characters between double quotes; plain ones are held back until a space, an escape or the
end, where the line may be cut behind a backslash. -/
def doubleFrom (indent : Nat) (split : Bool) : Bool → List Char → List Char → Pen → Pen
  | _, held, [], p => p.put held
  | first, held, c :: rest, p =>
    let escaped := isEscaped c
    let p := if escaped then (p.put held).put (escapeText c) else p
    let held := if escaped then [] else held
    let reached := p.column + held.length
    if !first && !rest.isEmpty && (c == ' ' || held.isEmpty) && split
        && (if escaped then width + 1 else width) < reached then
      let p := ((p.put (held ++ ['\\'])).indentTo indent).inLine
      let next := if escaped then rest.head? else some c
      let p := if next == some ' ' then p.put ['\\'] else p
      doubleFrom indent split false (if escaped then [] else [c]) rest p
    else doubleFrom indent split false (if escaped then [] else held ++ [c]) rest p

def double (indent : Nat) (split : Bool) (cs : List Char) (p : Pen) : Pen :=
  (doubleFrom indent split true [] cs (p.mark '"' true false false)).mark '"' false false false

def text (t : Tag) (indent : Nat) (split : Bool) (cs : List Char) (p : Pen) : Pen :=
  match styleOf t cs with
  | .plain => p.plain indent split cs
  | .single => p.single indent split cs
  | .double => p.double indent split cs

end Pen

end OptimalAssignment.Yaml
