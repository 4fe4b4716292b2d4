import OptimalAssignment.Cost.Table
import OptimalAssignment.Value

/-!
Elements of arrays. An array stores its cells in one kind of element before they are widened to
floats. There are two manners of doing so: a lenient one, in which texts are read and nothing is the
undefined float, and a strict one, which takes numbers only. They also differ in what does not fit.
-/
namespace OptimalAssignment

inductive Element where
  | double
  | single
  | half
  /-- Whole numbers of so many bits. -/
  | whole (signed : Bool) (bits : Nat)
  | truth
deriving Repr, DecidableEq

namespace Element

def ofName? : String → Option Element
  | "float64" => some double
  | "float32" => some single
  | "float16" => some half
  | "int64" => some (whole true 64)
  | "int32" => some (whole true 32)
  | "int16" => some (whole true 16)
  | "int8" => some (whole true 8)
  | "uint64" => some (whole false 64)
  | "uint32" => some (whole false 32)
  | "uint16" => some (whole false 16)
  | "uint8" => some (whole false 8)
  | "bool" => some truth
  | _ => none

def lowest : Element → Int
  | whole true bits => -Int.pow 2 (bits - 1)
  | _ => 0

def highest : Element → Int
  | whole true bits => Int.pow 2 (bits - 1) - 1
  | whole false bits => Int.pow 2 bits - 1
  | _ => 0

/-- The nearest float with eleven binary digits and no part below two to the power of minus
twenty-four; from 65520 on that is the endless one. -/
def halved (x : Float) : Float :=
  match Decimal.decode x with
  | .finite negative b =>
    let quantum : Int := max (-24) (b.exponent + Nat.log2 b.mantissa - 10)
    let n := (Decimal.Ratio.scaled b.mantissa 2 (b.exponent - quantum)).round
    let y := if quantum > 5 then Decimal.infinity else (Float.ofNat n).scaleB quantum
    let y := if y > 65504.0 then Decimal.infinity else y
    if negative then -y else y
  | _ => x

def keepFloat (kind : Element) (x : Float) : Float :=
  match kind with
  | single => x.toFloat32.toFloat
  | half => halved x
  | _ => x

/-- A float without its fraction, if it has a whole part. -/
def wholePart? (x : Float) : Option Int :=
  match Decimal.decode x with
  | .finite negative b =>
    let n : Int := b.ratio.floor
    some (if negative then -n else n)
  | _ => none

def widen (n : Int) : Except Rejection Float :=
  let x := Float.ofInt n
  if x.isFinite then .ok x else .error .tooLarge

def ofFlag (b : Bool) : Float :=
  if b then 1.0 else 0.0

/-! ### The lenient manner -/

def fit (kind : Element) (n : Int) : Except Rejection Float :=
  if kind.lowest ≤ n ∧ n ≤ kind.highest then widen n else .error .tooLarge

def fitReal (kind : Element) (x : Float) : Except Rejection Float :=
  match wholePart? x with
  | some n => fit kind n
  | none => .error (if x.isNaN then .notNumeral else .tooLarge)

def lenientFloat : Atom → Except Rejection Float
  | .truth b => .ok (ofFlag b)
  | .integer n => widen n
  | .real x => .ok x
  | .null | .undefined => .ok Decimal.undefined
  | .text s => ((Decimal.float? s).map Except.ok).getD (.error .notNumeral)
  | .bytes _ | .moment _ => .error .notNumber

def lenientWhole (kind : Element) : Atom → Except Rejection Float
  | .truth b => .ok (ofFlag b)
  | .integer n => fit kind n
  | .real x => fitReal kind x
  | .undefined => .error .notNumeral
  | .text s => ((Decimal.integer? s).map (fit kind)).getD (.error .notNumeral)
  | .null | .bytes _ | .moment _ => .error .notNumber

/-- A value as a lenient array keeps it. Anything is true or false. -/
def keepLenient (kind : Element) (v : Value) : Except Rejection Float :=
  match kind, v with
  | truth, v => .ok (ofFlag v.isTruthy)
  | whole .., .atom a => lenientWhole kind a
  | _, .atom a => (lenientFloat a).map kind.keepFloat
  | _, _ => .error .notNumber

/-! ### The strict manner -/

/-- The bounds of what is taken for a whole number at all. -/
def longest : Element :=
  whole true 64

/-- A whole number as an element keeps it; without signs, negative numbers count backwards. -/
def wrapWhole (kind : Element) (n : Int) : Except Rejection Float :=
  let least := if kind.lowest = 0 then -kind.highest else kind.lowest
  if n < longest.lowest ∨ longest.highest < n ∨ n < least ∨ kind.highest < n then .error .wontFit
  else widen (if kind.lowest = 0 then n % (kind.highest + 1) else n)

/-- The whole part of a float that an element keeps; the bounds are compared as floats. -/
def wrapReal (kind : Element) (x : Float) : Except Rejection Float :=
  if x < Float.ofInt kind.lowest || Float.ofInt kind.highest < x then .error .wontFit
  else
    match wholePart? x with
    | some n => widen (if n = Int.pow 2 63 ∧ kind = longest then -Int.pow 2 63 else n)
    | none => .error .wontFit

/-- A float as an element of floats keeps it; anything shorter is made from a single float. -/
def keepRounded (kind : Element) (x : Float) : Float :=
  if kind = double then x else kind.keepFloat x.toFloat32.toFloat

def keepStrict (kind : Element) (v : Value) : Except Rejection Float :=
  match v with
  | .atom (.truth b) => .ok (ofFlag b)
  | .atom (.integer n) =>
    match kind with
    | truth => .ok (ofFlag (n != 0))
    | whole .. => wrapWhole kind n
    | kind => (widen n).map kind.keepRounded
  | .atom (.real x) =>
    match kind with
    | truth => .ok (ofFlag (x != 0.0))
    | whole .. => wrapReal kind x
    | kind => .ok (kind.keepRounded x)
  | _ => .error .notNumber

end Element

end OptimalAssignment
