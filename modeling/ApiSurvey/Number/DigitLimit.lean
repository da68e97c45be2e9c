/-! The limit on the decimal digits of an integer. It holds wherever an integer is read from such
digits or written in them, and nowhere else: in a base that is a power of two an integer may be
longer. -/
namespace ApiSurvey.DigitLimit

/-- An integer has at most so many digits. -/
def most : Nat := 4300

/-- Whether an integer has too many digits to be written. -/
def isExceededBy (value : Int) : Bool :=
  (Nat.toDigits 10 value.natAbs).length > most

inductive Excess where
  /-- One that was to be read, with the number of its digits. -/
  | read (digits : Nat)
  /-- One that was to be written. -/
  | written
  deriving DecidableEq, Repr

def Excess.message (excess : Excess) : String :=
  let count := match excess with
    | .read digits => ": value has " ++ toString digits ++ " digits"
    | .written => ""
  "Exceeds the limit (" ++ toString most ++ " digits) for integer string conversion" ++ count ++
    "; use sys.set_int_max_str_digits() to increase the limit"

end ApiSurvey.DigitLimit
