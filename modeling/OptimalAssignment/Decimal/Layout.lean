import OptimalAssignment.Decimal.Numeral

/-!
Decimal texts. A layout says when a decimal is written with an exponent and how its parts are
spelled; the digits themselves come from elsewhere.
-/
namespace OptimalAssignment.Decimal

structure Layout where
  /-- The lowest leading exponent that is written without an exponent part. -/
  lowest : Int := -4
  /-- The highest leading exponent that is written without an exponent part. -/
  highest : Int
  /-- What follows the digits of a whole number. -/
  wholeMark : String
  /-- What follows a single digit before an exponent part. -/
  exponentMark : String := ""
  undefined : String := "nan"
  infinite : String := "inf"

def digitsOf (n : Nat) : List Char :=
  Nat.toDigits 10 n

/-- A decimal without trailing zeros; zero has the exponent zero. -/
def Numeral.strip (d : Numeral) : Numeral :=
  let cs := digitsOf d.digits
  let zeros := (cs.reverse.takeWhile (· == '0')).length
  if d.digits = 0 then ⟨0, 0⟩ else ⟨d.digits / Nat.pow 10 zeros, d.exponent + zeros⟩

/-- The exponent part: a sign and at least two digits. -/
def exponentPart (k : Int) : String :=
  let cs := digitsOf k.natAbs
  let padded := if cs.length < 2 then '0' :: cs else cs
  "e" ++ (if k < 0 then "-" else "+") ++ String.ofList padded

/-- A magnitude in positional notation: point, digits, and the mark of a whole number. -/
def positional (wholeMark : String) (d : Numeral) : String :=
  let cs := digitsOf d.digits
  if 0 ≤ d.exponent then
    String.ofList (cs ++ List.replicate d.exponent.toNat '0') ++ wholeMark
  else
    let places := (-d.exponent).toNat
    let padded := List.replicate (places + 1 - cs.length) '0' ++ cs
    let whole := padded.length - places
    String.ofList (padded.take whole) ++ "." ++ String.ofList (padded.drop whole)

namespace Layout

def magnitude (l : Layout) (d : Numeral) : String :=
  let d := d.strip
  let cs := digitsOf d.digits
  let leading := d.exponent + (cs.length - 1 : Nat)
  if l.lowest ≤ leading ∧ leading ≤ l.highest then positional l.wholeMark d
  else
    match cs with
    | first :: rest@(_ :: _) =>
      String.singleton first ++ "." ++ String.ofList rest ++ exponentPart leading
    | _ => String.ofList cs ++ l.exponentMark ++ exponentPart leading

/-- The text of a float whose magnitude is turned into a decimal in a given way. -/
def write (l : Layout) (digits : Binary → Numeral) (x : Float) : String :=
  match decode x with
  | .undefined => l.undefined
  | .infinite negative => (if negative then "-" else "") ++ l.infinite
  | .finite negative b => (if negative then "-" else "") ++ l.magnitude (digits b)

end Layout

/-- Full texts: positional below `10 ^ 16`, and a whole number keeps one zero after the point. -/
def full : Layout where
  highest := 15
  wholeMark := ".0"

/-- The shortest text that reads back. -/
def fullText (x : Float) : String :=
  full.write shortest x

/-- Brief texts: positional below a million, without trailing zeros. -/
def brief : Layout where
  highest := 5
  wholeMark := ""

/-- The text with at most six significant digits. -/
def briefText (x : Float) : String :=
  brief.write (toSignificant 6) x

def twoPlaceText (x : Float) : String :=
  match decode x with
  | .undefined => "nan"
  | .infinite negative => if negative then "-inf" else "inf"
  | .finite negative b => (if negative then "-" else "") ++ positional "" (toPlaces 2 b)

end OptimalAssignment.Decimal
