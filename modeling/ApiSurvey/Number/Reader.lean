import ApiSurvey.Number.Binary64
import ApiSurvey.Text.Blank
import ApiSurvey.Text.DecimalDigit
import ApiSurvey.Text.Digits

/-! Reading the text of floating point numbers. -/
namespace ApiSurvey.Binary64

/-- A whole text as an exponent; an empty text is none. -/
def readExponent? : List Char → Option Int
  | [] => some 0
  | mark :: rest =>
      let (negative, digits) := Text.splitSign rest
      if (mark == 'e' || mark == 'E') && !digits.isEmpty && digits.all Char.isDigit then
        let value : Int := Text.digitsValue 10 digits
        some (if negative then -value else value)
      else none

/-- A whole text as a decimal without a sign. There is a digit before or behind the point. -/
def readDecimal? (negative : Bool) (text : List Char) : Option Decimal :=
  let (whole, rest) := text.span Char.isDigit
  let (fraction, rest) := match rest with
    | '.' :: rest => rest.span Char.isDigit
    | rest => ([], rest)
  if whole.isEmpty && fraction.isEmpty then none
  else
    (readExponent? rest).map fun exponent =>
      ⟨negative, Text.digitsValue 10 (whole ++ fraction), exponent - fraction.length⟩

/-- A text without the underscores that stand between two digits. One elsewhere stays, and makes the
text no number. -/
def joinDigits : List Char → List Char
  | first :: '_' :: second :: rest =>
      if first.isDigit && second.isDigit then first :: joinDigits (second :: rest)
      else first :: '_' :: joinDigits (second :: rest)
  | c :: rest => c :: joinDigits rest
  | [] => []

/-- The number that a text names or is nearest to. Blanks around it do not count, and its digits
may be those of any script. -/
def ofText? (text : String) : Option Binary64 :=
  let (negative, rest) := Text.splitSign ((Text.trim text.toList).map Text.plainDigit)
  let lower := rest.map Char.toLower
  if lower == "inf".toList || lower == "infinity".toList then some (.infinite negative)
  else if lower == "nan".toList then some .nan
  else (readDecimal? negative (joinDigits rest)).map Decimal.toBinary64

end ApiSurvey.Binary64
