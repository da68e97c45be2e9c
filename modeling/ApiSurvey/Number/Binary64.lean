/-! Binary floating point numbers of 64 bits, as exact values. Nothing here computes with them:
they are read from decimals, rounded to the nearest, and written as decimals again. -/
namespace ApiSurvey

/-- A floating point number. A finite one is `significand * 2 ^ exponent`; the significand has at
most 53 bits, and fewer only at the least exponent. -/
inductive Binary64 where
  | nan
  | infinite (negative : Bool)
  | finite (negative : Bool) (significand : Nat) (exponent : Int)
  deriving DecidableEq, Repr

namespace Binary64

def twoPow (exponent : Nat) : Nat :=
  Nat.pow 2 exponent

def tenPow (exponent : Nat) : Nat :=
  Nat.pow 10 exponent

/-- The exponent of the finest numbers. -/
def minExponent : Int := -1074

/-- The exponent of the coarsest numbers. -/
def maxExponent : Int := 971

/-- The quotient rounded to the nearest integer, a half to the even one. -/
def roundDiv (numerator denominator : Nat) : Nat :=
  let quotient := numerator / denominator
  let twice := 2 * (numerator % denominator)
  if twice > denominator || (twice == denominator && quotient % 2 == 1) then quotient + 1
  else quotient

/-- A fraction, both parts of which are scaled to whole numbers, divided by a power of two. -/
def scaleDown (numerator denominator : Nat) (exponent : Int) : Nat × Nat :=
  if exponent ≥ 0 then (numerator, denominator * twoPow exponent.toNat)
  else (numerator * twoPow (-exponent).toNat, denominator)

/-- The number nearest to a positive fraction. -/
def ofRatio (negative : Bool) (numerator denominator : Nat) : Binary64 :=
  let estimate : Int := (numerator.log2 : Int) - denominator.log2
  let (low, high) := scaleDown numerator denominator estimate
  let magnitude := if low ≥ high then estimate else estimate - 1
  let exponent := if magnitude - 52 < minExponent then minExponent else magnitude - 52
  let (low, high) := scaleDown numerator denominator exponent
  let rounded := roundDiv low high
  let (significand, exponent) :=
    if rounded == twoPow 53 then (twoPow 52, exponent + 1) else (rounded, exponent)
  if exponent > maxExponent then .infinite negative
  else .finite negative significand exponent

end Binary64

/-- A decimal, `digits * 10 ^ exponent`. -/
structure Decimal where
  negative : Bool
  digits : Nat
  exponent : Int
  deriving DecidableEq, Repr

/-- The number nearest to a decimal. Decimals far outside the range are settled by their size, so
a huge exponent costs nothing. -/
def Decimal.toBinary64 (decimal : Decimal) : Binary64 :=
  let size : Int := (Nat.toDigits 10 decimal.digits).length + decimal.exponent
  if decimal.digits == 0 || size < -330 then .finite decimal.negative 0 Binary64.minExponent
  else if size > 310 then .infinite decimal.negative
  else if decimal.exponent ≥ 0 then
    .ofRatio decimal.negative (decimal.digits * Binary64.tenPow decimal.exponent.toNat) 1
  else .ofRatio decimal.negative decimal.digits (Binary64.tenPow (-decimal.exponent).toNat)

end ApiSurvey
