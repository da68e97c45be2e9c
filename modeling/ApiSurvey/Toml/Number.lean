import ApiSurvey.Settings.Value
import ApiSurvey.Text.Digits
import ApiSurvey.Toml.Failure

/-! Numbers of a TOML document. Single underscores may stand between digits. -/
namespace ApiSurvey.Toml

/-- The digits at the start of a text that follow a digit. -/
def moreDigits (isDigit : Char → Bool) : List Char → List Char × List Char
  | [] => ([], [])
  | '_' :: c :: rest =>
      if isDigit c then
        let (digits, rest) := moreDigits isDigit rest
        (c :: digits, rest)
      else ([], '_' :: c :: rest)
  | c :: rest =>
      if isDigit c then
        let (digits, rest) := moreDigits isDigit rest
        (c :: digits, rest)
      else ([], c :: rest)

/-- At least one digit at the start of a text. -/
def digits? (isDigit : Char → Bool) : List Char → Option (List Char × List Char)
  | [] => none
  | c :: rest =>
      if isDigit c then
        let (digits, rest) := moreDigits isDigit rest
        some (c :: digits, rest)
      else none

/-- An integer in another base, marked by a zero and a letter. -/
def basedInteger? : List Char → Option (Nat × List Char)
  | '0' :: 'x' :: rest =>
      (digits? (fun c => (Text.hexDigit? c).isSome) rest).map fun (digits, rest) =>
        (Text.digitsValue 16 digits, rest)
  | '0' :: 'b' :: rest =>
      (digits? (fun c => c == '0' || c == '1') rest).map fun (digits, rest) =>
        (Text.digitsValue 2 digits, rest)
  | '0' :: 'o' :: rest =>
      (digits? (fun c => '0' ≤ c && c ≤ '7') rest).map fun (digits, rest) =>
        (Text.digitsValue 8 digits, rest)
  | _ => none

/-- The digits before the point; a zero at their start is all of them. -/
def wholeDigits? : List Char → Option (List Char × List Char)
  | '0' :: rest => some (['0'], rest)
  | text => digits? Char.isDigit text

/-- The digits behind a point, if both are there. -/
def fractionDigits? : List Char → Option (List Char × List Char)
  | '.' :: rest => digits? Char.isDigit rest
  | _ => none

/-- An exponent, if its mark and its digits are there. -/
def exponent? : List Char → Option (Int × List Char)
  | c :: rest =>
      if c == 'e' || c == 'E' then
        let (negative, rest) := Text.splitSign rest
        (digits? Char.isDigit rest).map fun (digits, rest) =>
          let value : Int := Text.digitsValue 10 digits
          (if negative then -value else value, rest)
      else none
  | [] => none

/-- An integer with these digits. -/
def decimalInteger (negative : Bool) (digits : List Char) : Except Failure Setting :=
  if digits.length > DigitLimit.most then .error (.longInteger digits.length)
  else
    let value : Int := Text.digitsValue 10 digits
    .ok (.integer (if negative then -value else value))

/-- A decimal number behind its sign and with these digits before the point: an integer unless a
fraction or an exponent follows. Only an integer is limited in its digits. -/
def decimalRest (negative : Bool) (whole rest : List Char) : Except Failure (Setting × List Char) :=
  let fraction? := fractionDigits? rest
  let rest := (fraction?.map Prod.snd).getD rest
  let exponent? := exponent? rest
  let rest := (exponent?.map Prod.snd).getD rest
  if fraction?.isNone && exponent?.isNone then
    (decimalInteger negative whole).map fun value => (value, rest)
  else
    let fraction := (fraction?.map Prod.fst).getD []
    let exponent := (exponent?.map Prod.fst).getD 0
    let decimal : Decimal :=
      ⟨negative, Text.digitsValue 10 (whole ++ fraction), exponent - fraction.length⟩
    .ok (.float decimal.toBinary64, rest)

/-- The names of numbers that no digits spell. -/
def numberNames : List (List Char × Binary64) :=
  [(['i', 'n', 'f'], .infinite false), (['n', 'a', 'n'], .nan),
    (['-', 'i', 'n', 'f'], .infinite true), (['+', 'i', 'n', 'f'], .infinite false),
    (['-', 'n', 'a', 'n'], .nan), (['+', 'n', 'a', 'n'], .nan)]

/-- The name of a number at the start of a text. -/
def namedNumber? (text : List Char) : Option (Setting × List Char) :=
  (numberNames.find? fun (name, _) => name.isPrefixOf text).map fun (name, value) =>
    (.float value, text.drop name.length)

def number (text : List Char) : Except Failure (Setting × List Char) :=
  match basedInteger? text with
  | some (value, rest) => .ok (.integer value, rest)
  | none =>
      let (negative, rest) := Text.splitSign text
      match wholeDigits? rest with
      | some (whole, rest) => decimalRest negative whole rest
      | none => piece (namedNumber? text)

end ApiSurvey.Toml
