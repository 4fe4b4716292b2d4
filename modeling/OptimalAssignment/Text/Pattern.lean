/-!
Patterns of names. A star stands for any characters, a question mark for one, and characters between
square brackets for one of them; two of these with a hyphen between them span a range. Ranges that
hold nothing are left out, and if what is left has an exclamation mark at the front, a character is
asked for that is none of the others. A bracket that is never closed stands for itself.
-/
namespace OptimalAssignment.Text

inductive Span where
  | single (c : Char)
  | range (low high : Char)
deriving Repr, DecidableEq

namespace Span

def ofChars : List Char → List Span
  | low :: '-' :: high :: cs => range low high :: ofChars cs
  | c :: cs => single c :: ofChars cs
  | [] => []

def isInhabited : Span → Bool
  | single _ => true
  | range low high => low ≤ high

def holds (c : Char) : Span → Bool
  | single d => c == d
  | range low high => low ≤ c && c ≤ high

end Span

inductive Piece where
  | any
  | one
  | exactly (c : Char)
  /-- One character in any of some spans; or, if negated, in none of them. -/
  | within (negated : Bool) (spans : List Span)
deriving Repr, DecidableEq

namespace Piece

/-- The piece that spans between square brackets stand for. An exclamation mark at the front negates
the rest, also when a range begins with it; the hyphen of such a range stands for itself. -/
def ofSpans (spans : List Span) : Piece :=
  match spans.filter (·.isInhabited) with
  | .single '!' :: others => within true others
  | .range '!' high :: others => within true (.single '-' :: .single high :: others)
  | spans => within false spans

def admits (c : Char) : Piece → Bool
  | any | one => true
  | exactly d => c == d
  | within negated spans => negated != spans.any (·.holds c)

/-- The characters up to a closing bracket and those after it. A bracket at the very front does not
close. -/
def bracketed? (cs : List Char) : Option (List Char × List Char) :=
  let first := cs.take 1
  let later := (cs.drop 1).takeWhile (· != ']')
  match (cs.drop 1).dropWhile (· != ']') with
  | [] => none
  | _ :: rest => some (first ++ later, rest)

theorem length_bracketed? {cs inside rest : List Char} (h : bracketed? cs = some (inside, rest)) :
    rest.length < cs.length := by
  simp only [bracketed?] at h
  split at h
  · simp at h
  · rename_i c after hd
    simp only [Option.some.injEq, Prod.mk.injEq] at h
    have hs := ((cs.drop 1).dropWhile_sublist (· != ']')).length_le
    rw [hd] at hs
    simp only [List.length_cons, List.length_drop] at hs
    rw [← h.2]
    omega

def ofChars : List Char → List Piece
  | [] => []
  | '*' :: cs => any :: ofChars cs
  | '?' :: cs => one :: ofChars cs
  | '[' :: '!' :: cs =>
    match h : bracketed? cs with
    | some (inside, rest) =>
      have := length_bracketed? h
      ofSpans (.single '!' :: Span.ofChars inside) :: ofChars rest
    | none => exactly '[' :: ofChars ('!' :: cs)
  | '[' :: cs =>
    match h : bracketed? cs with
    | some (inside, rest) =>
      have := length_bracketed? h
      ofSpans (Span.ofChars inside) :: ofChars rest
    | none => exactly '[' :: ofChars cs
  | c :: cs => exactly c :: ofChars cs
termination_by cs => cs.length

def fits : List Piece → List Char → Bool
  | [], cs => cs.isEmpty
  | any :: ps, [] => fits ps []
  | any :: ps, c :: cs => fits ps (c :: cs) || fits (any :: ps) cs
  | _ :: _, [] => false
  | p :: ps, c :: cs => p.admits c && fits ps cs
termination_by ps cs => ps.length + cs.length

end Piece

def fitsPattern (pattern name : String) : Bool :=
  Piece.fits (Piece.ofChars pattern.toList) name.toList

/-- Whether a text is more than a plain name when read as a pattern. -/
def isPattern (s : String) : Bool :=
  s.toList.any fun c => c == '*' || c == '?' || c == '['

end OptimalAssignment.Text
