import ApiSurvey.Number.Shortest
import ApiSurvey.Text.Digits

/-! The text of floating point numbers: the shortest digits, with a fraction always shown, in
positional notation from 0.0001 up to 10 ^ 16 and with an exponent elsewhere. -/
namespace ApiSurvey.Binary64

/-- Zeros at the end of a list of digits add nothing. -/
def withoutTrailingZeros (digits : List Char) : List Char :=
  (digits.reverse.dropWhile (· == '0')).reverse

/-- Digits with the decimal point behind this many of them. -/
def positional (digits : List Char) (point : Int) : List Char :=
  if point ≤ 0 then '0' :: '.' :: List.replicate (-point).toNat '0' ++ digits
  else
    let whole := point.toNat
    if digits.length ≤ whole then
      digits ++ List.replicate (whole - digits.length) '0' ++ ['.', '0']
    else digits.take whole ++ '.' :: digits.drop whole

/-- An exponent has a sign and at least two digits. -/
def exponentText (exponent : Int) : List Char :=
  'e' :: (if exponent < 0 then '-' else '+') :: Text.padDigits 10 2 exponent.natAbs

/-- Digits with an exponent, the decimal point behind the first digit. -/
def scientific (digits : List Char) (exponent : Int) : List Char :=
  match digits with
  | [digit] => digit :: exponentText exponent
  | digits => digits.take 1 ++ '.' :: digits.drop 1 ++ exponentText exponent

def text : Binary64 → String
  | .nan => "nan"
  | .infinite negative => if negative then "-inf" else "inf"
  | .finite negative significand exponent =>
      let body :=
        if significand == 0 then "0.0".toList
        else
          let (digits, place) := shortest significand exponent
          let digits := Nat.toDigits 10 digits
          let point : Int := digits.length + place
          let digits := withoutTrailingZeros digits
          if -4 < point && point ≤ 16 then positional digits point
          else scientific digits (point - 1)
      String.ofList (if negative then '-' :: body else body)

end ApiSurvey.Binary64
