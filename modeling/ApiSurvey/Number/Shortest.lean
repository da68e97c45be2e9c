import ApiSurvey.Number.Binary64

/-! The shortest decimal of a floating point number: the fewest digits that are nearer to it than
to every other number, and of those the digits nearest to it. -/
namespace ApiSurvey.Binary64

/-- A positive number and the ends of the interval that rounds to it, over one denominator. -/
structure Interval where
  low : Nat
  value : Nat
  high : Nat
  denominator : Nat
  /-- Whether the ends round to the number, too. -/
  closed : Bool

/-- The interval of a positive number. Below a power of two the next number is only half as far. -/
def interval (significand : Nat) (exponent : Int) : Interval :=
  let below := if significand == twoPow 52 && exponent > minExponent then 1 else 2
  let quarter := exponent - 2
  let factor := if quarter ≥ 0 then twoPow quarter.toNat else 1
  { low := (4 * significand - below) * factor
    value := 4 * significand * factor
    high := (4 * significand + 2) * factor
    denominator := if quarter ≥ 0 then 1 else twoPow (-quarter).toNat
    closed := significand % 2 == 0 }

/-- Places that shift every positive number above one. -/
def headroom : Nat := 400

/-- The place of the decimal point: the least power of ten above the number. -/
def pointPlace (interval : Interval) : Int :=
  let shifted := interval.value * tenPow headroom / interval.denominator
  ((Nat.toDigits 10 shifted).length : Int) - headroom

/-- The digits of the nearest decimal with this least place, if it rounds to the number. -/
def nearestAt? (interval : Interval) (place : Int) : Option Nat :=
  let up := if place ≥ 0 then 1 else tenPow (-place).toNat
  let unit := interval.denominator * (if place ≥ 0 then tenPow place.toNat else 1)
  let value := interval.value * up
  let rounds (digits : Nat) : Bool :=
    if interval.closed then
      interval.low * up ≤ digits * unit && digits * unit ≤ interval.high * up
    else interval.low * up < digits * unit && digits * unit < interval.high * up
  let lower := value / unit
  let upper := lower + 1
  let below := value - lower * unit
  let above := upper * unit - value
  match rounds lower, rounds upper with
  | true, true =>
      if below < above || (below == above && lower % 2 == 0) then some lower else some upper
  | true, false => some lower
  | false, true => some upper
  | false, false => none

/-- The digits of the shortest decimal and the place of its last digit. Seventeen digits are always
enough. -/
def shortest (significand : Nat) (exponent : Int) : Nat × Int :=
  let interval := interval significand exponent
  let point := pointPlace interval
  let found := (List.range' 1 17).findSome? fun (count : Nat) =>
    (nearestAt? interval (point - count)).map fun digits => (digits, point - count)
  found.getD (0, 0)

end ApiSurvey.Binary64
