import ApiSurvey.Text.Digits

/-! Dates and times of day, as settings write them. -/
namespace ApiSurvey

structure Date where
  year : Nat
  month : Nat
  day : Nat
  deriving DecidableEq, Repr

/-- A time of day, to the millionth of a second. -/
structure TimeOfDay where
  hour : Nat
  minute : Nat
  second : Nat
  microsecond : Nat := 0
  deriving DecidableEq, Repr

/-- Digits of a number, padded with zeros to a least width. -/
def padded (width value : Nat) : String :=
  String.ofList (Text.padDigits 10 width value)

namespace Date

def isLeap (year : Nat) : Bool :=
  year % 4 == 0 && (year % 100 != 0 || year % 400 == 0)

/-- The number of days of a month. -/
def daysIn (year month : Nat) : Nat :=
  if month == 2 then (if isLeap year then 29 else 28)
  else if month == 4 || month == 6 || month == 9 || month == 11 then 30
  else 31

/-- Whether there is such a day in the years from 1 to 9999. -/
def isValid (date : Date) : Bool :=
  1 ≤ date.year && date.year ≤ 9999 && 1 ≤ date.month && date.month ≤ 12 && 1 ≤ date.day &&
    date.day ≤ daysIn date.year date.month

/-- Year, month and day between dashes. -/
def iso (date : Date) : String :=
  padded 4 date.year ++ "-" ++ padded 2 date.month ++ "-" ++ padded 2 date.day

end Date

namespace TimeOfDay

/-- Hour, minute and second between colons; a fraction is shown only if there is one. -/
def iso (time : TimeOfDay) : String :=
  padded 2 time.hour ++ ":" ++ padded 2 time.minute ++ ":" ++ padded 2 time.second ++
    (if time.microsecond == 0 then "" else "." ++ padded 6 time.microsecond)

/-- The numbers of a time, without zeros at the end but never less than hour and minute. -/
def numbers (time : TimeOfDay) : List Nat :=
  [time.hour, time.minute] ++
    (if time.microsecond != 0 then [time.second, time.microsecond]
    else if time.second != 0 then [time.second]
    else [])

end TimeOfDay

/-- Distance of a local time from universal time, in minutes. -/
structure Offset where
  minutes : Int
  deriving DecidableEq, Repr

/-- A sign, hours and minutes. -/
def Offset.iso (offset : Offset) : String :=
  let size := offset.minutes.natAbs
  (if offset.minutes < 0 then "-" else "+") ++ padded 2 (size / 60) ++ ":" ++ padded 2 (size % 60)

end ApiSurvey
