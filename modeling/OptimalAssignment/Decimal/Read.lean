import OptimalAssignment.Decimal.Layout
import OptimalAssignment.Text.Character

/-!
Reading numbers. A decimal is read exactly and rounded once. Digits of all scripts count, single
underscores may stand between digits where the caller says so, and blanks at the ends do not matter.
Whole numbers to base ten are read up to a greatest number of digits.
-/
namespace OptimalAssignment.Decimal

def infinity : Float := 1.0 / 0.0

def undefined : Float := 0.0 / 0.0

/-- The float nearest to `digits * 10 ^ exponent`. -/
def nearest (digits : Nat) (exponent : Int) : Float :=
  let leading := exponent + (digitsOf digits).length
  if digits = 0 ∨ leading < -400 then 0.0
  else if 400 < leading then infinity
  else if exponent < 0 then Float.ofScientific digits true (-exponent).toNat
  else Float.ofScientific digits false exponent.toNat

def numberOf (cs : List Char) : Nat :=
  cs.foldl (fun n c => 10 * n + (c.toNat - 48)) 0

/-- Split off a leading sign; the flag says that it is a minus. -/
def splitSign : List Char → Bool × List Char
  | '-' :: cs => (true, cs)
  | '+' :: cs => (false, cs)
  | cs => (false, cs)

def signed (negative : Bool) (x : Float) : Float :=
  if negative then -x else x

/-- An exponent part or nothing; the exponent is zero if there is none. -/
def exponent? : List Char → Option Int
  | [] => some 0
  | c :: cs =>
    let (negative, digits) := splitSign cs
    if (c == 'e' || c == 'E') && !digits.isEmpty && digits.all Char.isDigit then
      some (if negative then -(numberOf digits : Int) else numberOf digits)
    else none

/-- Digits with a point and an exponent, both of which may be missing. -/
def unsigned? (cs : List Char) : Option Float :=
  let whole := cs.takeWhile Char.isDigit
  let rest := cs.dropWhile Char.isDigit
  let (places, rest) :=
    match rest with
    | '.' :: rest => (rest.takeWhile Char.isDigit, rest.dropWhile Char.isDigit)
    | _ => ([], rest)
  if whole.isEmpty && places.isEmpty then none
  else (exponent? rest).map fun k => nearest (numberOf (whole ++ places)) (k - places.length)

/-- A float in plain characters: digits, or the names of the infinite and the undefined float in
any case, after an optional sign. -/
def plainFloat? (cs : List Char) : Option Float :=
  let (negative, cs) := splitSign cs
  let name := String.ofList (cs.map Char.toLower)
  if name == "inf" || name == "infinity" then some (signed negative infinity)
  else if name == "nan" then some (signed negative undefined)
  else (unsigned? cs).map (signed negative)

/-- Blanks at the ends dropped and digits of all scripts replaced by plain ones. In plain characters
the separators of records are no blanks. -/
def plainChars (s : String) : List Char :=
  let blank := if s.toList.all (·.toNat < 128) then Text.isSpace else Text.isBlank
  (Text.trimWhere blank s.toList).map fun c =>
    (Text.digitValue? c).elim c fun n => Char.ofNat (48 + n)

/-- A text without its underscores, each of which has to stand between two digits. -/
def dropUnderscores? : Bool → List Char → Option (List Char)
  | _, [] => some []
  | afterDigit, '_' :: cs =>
    match cs with
    | c :: _ => if afterDigit && c.isDigit then dropUnderscores? false cs else none
    | [] => none
  | _, c :: cs => (dropUnderscores? c.isDigit cs).map (c :: ·)

def float? (s : String) : Option Float := do
  plainFloat? (← dropUnderscores? false (plainChars s))

/-- The greatest number of digits of a whole number that is read to base ten. -/
def digitLimit : Nat := 4300

/-- The number of digits at the head of a whole number, if there are too many to be read. -/
def excessDigits? (s : String) : Option Nat := do
  let (_, cs) := splitSign (plainChars s)
  let digits ← dropUnderscores? false (cs.takeWhile fun c => c.isDigit || c == '_')
  if digitLimit < digits.length then some digits.length else none

def integer? (s : String) : Option Int := do
  let cs ← dropUnderscores? false (plainChars s)
  let (negative, digits) := splitSign cs
  if digits.isEmpty || digitLimit < digits.length || !digits.all Char.isDigit then none
  else some (if negative then -(numberOf digits : Int) else numberOf digits)

/-- The value of a digit to a base up to sixteen. -/
def digitTo? (base : Nat) (c : Char) : Option Nat :=
  let n :=
    if c.isDigit then c.toNat - 48
    else if c.isAlpha then c.toLower.toNat - 87
    else base
  if n < base then some n else none

/-- Digits without the mark of their base, which is a zero and one of two letters. -/
def dropBaseMark (small large : Char) : List Char → List Char
  | '0' :: c :: cs => if c == small || c == large then cs else '0' :: c :: cs
  | cs => cs

/-- A whole number to another base, perhaps with a sign and with the letter of its base behind a
zero. -/
def integerTo? (base : Nat) (small large : Char) (s : String) : Option Int := do
  let (negative, cs) := splitSign (plainChars s)
  let digits := dropBaseMark small large cs
  if digits.isEmpty then none
  else
    let n ← digits.foldlM (fun n c => (digitTo? base c).map (base * n + ·)) 0
    some (if negative then -(n : Int) else n)

end OptimalAssignment.Decimal
