import ApiSurvey.Settings.Value
import ApiSurvey.Text.Digits

/-! Dates and times of a TOML document. -/
namespace ApiSurvey.Toml

/-- A number of exactly so many digits within bounds. -/
def fixed? (width low high : Nat) (text : List Char) : Option (Nat × List Char) :=
  let digits := text.take width
  if digits.length == width && digits.all Char.isDigit then
    let value := Text.digitsValue 10 digits
    if low ≤ value && value ≤ high then some (value, text.drop width) else none
  else none

/-- A character that must stand at the start of a text. -/
def expect? (c : Char) : List Char → Option (List Char)
  | [] => none
  | first :: rest => if first == c then some rest else none

/-- Year, month and day, whether or not there is such a day. -/
def date? (text : List Char) : Option (Date × List Char) := do
  let (year, rest) ← fixed? 4 0 9999 text
  let rest ← expect? '-' rest
  let (month, rest) ← fixed? 2 1 12 rest
  let rest ← expect? '-' rest
  let (day, rest) ← fixed? 2 1 31 rest
  return (⟨year, month, day⟩, rest)

/-- The millionths of a second behind a point. Digits beyond the sixth are cut off. -/
def microseconds (text : List Char) : Nat × List Char :=
  match text with
  | '.' :: rest =>
      match rest.span Char.isDigit with
      | ([], _) => (0, text)
      | (digits, rest) =>
          let kept := digits.take 6
          (Text.digitsValue 10 (kept ++ List.replicate (6 - kept.length) '0'), rest)
  | text => (0, text)

def time? (text : List Char) : Option (TimeOfDay × List Char) := do
  let (hour, rest) ← fixed? 2 0 23 text
  let rest ← expect? ':' rest
  let (minute, rest) ← fixed? 2 0 59 rest
  let rest ← expect? ':' rest
  let (second, rest) ← fixed? 2 0 59 rest
  let (microsecond, rest) := microseconds rest
  return (⟨hour, minute, second, microsecond⟩, rest)

/-- A sign, hours and minutes. -/
def signedOffset? : List Char → Option (Offset × List Char)
  | c :: rest =>
      if c == '+' || c == '-' then do
        let (hours, rest) ← fixed? 2 0 23 rest
        let rest ← expect? ':' rest
        let (minutes, rest) ← fixed? 2 0 59 rest
        let size : Int := hours * 60 + minutes
        return (⟨if c == '-' then -size else size⟩, rest)
      else none
  | [] => none

/-- The offset behind a time, if there is one. -/
def offset (text : List Char) : Option Offset × List Char :=
  match text with
  | 'Z' :: rest => (some ⟨0⟩, rest)
  | 'z' :: rest => (some ⟨0⟩, rest)
  | text =>
      match signedOffset? text with
      | some (offset, rest) => (some offset, rest)
      | none => (none, text)

/-- The time behind a date: a letter or a space divides them. -/
def timeAfterDate? : List Char → Option (TimeOfDay × List Char)
  | c :: rest => if c == 'T' || c == 't' || c == ' ' then time? rest else none
  | [] => none

/-- What a date at the start of a text stands for, alone or with a time behind it. -/
def moment (date : Date) (rest : List Char) : Setting × List Char :=
  match timeAfterDate? rest with
  | none => (.date date, rest)
  | some (time, rest) =>
      let (offset, rest) := offset rest
      (.moment date time offset, rest)

end ApiSurvey.Toml
