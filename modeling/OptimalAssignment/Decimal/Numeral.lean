import OptimalAssignment.Decimal.Binary

/-!
Decimals of floats. The shortest decimal that reads back is looked for on decimal grids, from coarse
to fine; on the first grid that holds a decimal within the rounding interval, the one nearest to the
value is taken. A decimal of a given precision is the exact value, rounded once to a number of
significant digits or of places. Of two equally near decimals the even one is taken.
-/
namespace OptimalAssignment.Decimal

/-- The decimal `digits * 10 ^ exponent`. -/
structure Numeral where
  digits : Nat
  exponent : Int
deriving Repr, DecidableEq

/-- The decimal of a grid that reads back as a magnitude and lies nearest to it. -/
def nearestOn? (b : Binary) (exponent : Int) : Option Numeral :=
  let scaled := b.ratio.perPower exponent
  let low := scaled.floor
  let readsBack (n : Nat) : Bool := n ≠ 0 && b.reads (Ratio.scaled n 10 exponent)
  match readsBack low, readsBack (low + 1) with
  | false, false => none
  | true, false => some ⟨low, exponent⟩
  | false, true => some ⟨low + 1, exponent⟩
  | true, true => some ⟨scaled.round, exponent⟩

/-- Try grids of falling exponents, as many as the fuel allows. -/
def coarsest (b : Binary) : Nat → Int → Numeral
  | 0, exponent => ⟨b.ratio.perPower exponent |>.round, exponent⟩
  | fuel + 1, exponent => (nearestOn? b exponent).getD (coarsest b fuel (exponent - 1))

/-- The shortest decimal that reads back as a magnitude; seventeen digits always do. -/
def shortest (b : Binary) : Numeral :=
  if b.mantissa = 0 then ⟨0, 0⟩ else coarsest b 24 b.powerAbove

/-! ### Decimals of a given precision -/

/-- The greatest power of ten, from a given one downwards, that is not above a fraction. -/
def leadingPower (r : Ratio) : Nat → Int → Int
  | 0, k => k
  | fuel + 1, k => if r.order (Ratio.scaled 1 10 k) == .lt then leadingPower r fuel (k - 1) else k

def toSignificant (count : Nat) (b : Binary) : Numeral :=
  if b.mantissa = 0 then ⟨0, 0⟩
  else
    let exponent := leadingPower b.ratio 8 b.powerAbove - (count - 1 : Nat)
    ⟨(b.ratio.perPower exponent).round, exponent⟩

def toPlaces (count : Nat) (b : Binary) : Numeral :=
  ⟨(b.ratio.perPower (-count)).round, -count⟩

end OptimalAssignment.Decimal
