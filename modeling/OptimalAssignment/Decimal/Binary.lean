/-!
Double-precision floats, opened. A finite float is a sign, a whole mantissa and a power of two; the
reals that round to it form an interval around it.
-/
namespace OptimalAssignment.Decimal

/-- The magnitude `mantissa * 2 ^ exponent`. -/
structure Binary where
  mantissa : Nat
  exponent : Int
deriving Repr, DecidableEq

/-- What a float is: undefined, infinite, or a sign with a magnitude. -/
inductive Decoded where
  | undefined
  | infinite (negative : Bool)
  | finite (negative : Bool) (magnitude : Binary)
deriving Repr, DecidableEq

/-- Read a float off its bits: one sign bit, eleven exponent bits, fifty-two mantissa bits. -/
def decodeBits (bits : Nat) : Decoded :=
  let negative := bits / Nat.pow 2 63 % 2 == 1
  let exponent : Nat := bits / Nat.pow 2 52 % Nat.pow 2 11
  let fraction := bits % Nat.pow 2 52
  if exponent = Nat.pow 2 11 - 1 then
    if fraction = 0 then .infinite negative else .undefined
  else if exponent = 0 then .finite negative ⟨fraction, -1074⟩
  else .finite negative ⟨Nat.pow 2 52 + fraction, (exponent : Int) - 1075⟩

def decode (x : Float) : Decoded :=
  decodeBits x.toBits.toNat

structure Ratio where
  num : Nat
  den : Nat
deriving Repr, DecidableEq

namespace Ratio

/-- The fraction `n * base ^ k`. -/
def scaled (n base : Nat) (k : Int) : Ratio :=
  if 0 ≤ k then ⟨n * Nat.pow base k.toNat, 1⟩ else ⟨n, Nat.pow base (-k).toNat⟩

def perPower (r : Ratio) (k : Int) : Ratio :=
  if 0 ≤ k then ⟨r.num, r.den * Nat.pow 10 k.toNat⟩ else ⟨r.num * Nat.pow 10 (-k).toNat, r.den⟩

def floor (r : Ratio) : Nat :=
  r.num / r.den

def order (r s : Ratio) : Ordering :=
  compare (r.num * s.den) (s.num * r.den)

/-- The nearest whole number; of two equally near ones the even one. -/
def round (r : Ratio) : Nat :=
  let whole := r.num / r.den
  match compare (2 * (r.num % r.den)) r.den with
  | .lt => whole
  | .gt => whole + 1
  | .eq => if whole % 2 = 0 then whole else whole + 1

end Ratio

namespace Binary

def ratio (b : Binary) : Ratio :=
  Ratio.scaled b.mantissa 2 b.exponent

/-- The least real that rounds to a magnitude, or the limit of those reals. At the bottom of a
binade the reals below lie half as wide apart as those above. -/
def lowEnd (b : Binary) : Ratio :=
  if b.mantissa = Nat.pow 2 52 ∧ -1074 < b.exponent then
    Ratio.scaled (4 * b.mantissa - 1) 2 (b.exponent - 2)
  else Ratio.scaled (2 * b.mantissa - 1) 2 (b.exponent - 1)

/-- The greatest real that rounds to a magnitude, or the limit of those reals. -/
def highEnd (b : Binary) : Ratio :=
  Ratio.scaled (2 * b.mantissa + 1) 2 (b.exponent - 1)

/-- Whether a real rounds to a magnitude; a real at an end does so if the mantissa is even. -/
def reads (b : Binary) (r : Ratio) : Bool :=
  let even := b.mantissa % 2 == 0
  let low := b.lowEnd.order r
  let high := r.order b.highEnd
  (low == .lt || even && low == .eq) && (high == .lt || even && high == .eq)

/-- A power of ten that no real rounding to the magnitude reaches. -/
def powerAbove (b : Binary) : Int :=
  ((b.mantissa.log2 : Int) + 1 + b.exponent) * 30103 / 100000 + 2

end Binary

end OptimalAssignment.Decimal
