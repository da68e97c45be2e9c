import ApiSurvey.Number.DigitLimit

/-! Why a text is not read as a TOML document. -/
namespace ApiSurvey.Toml

/-- What stops the reading of a document. Whatever comes first in the text counts. -/
inductive Failure where
  /-- The text is no document. -/
  | malformed
  /-- A decimal integer has too many digits; there are so many. -/
  | longInteger (digits : Nat)
  /-- Lists and inline tables stand in each other more deeply than the host can follow. -/
  | tooDeep
  deriving DecidableEq, Repr

/-- A piece that was looked for. A text without it is malformed. -/
def piece {α : Type} : Option α → Except Failure α
  | some found => .ok found
  | none => .error .malformed

end ApiSurvey.Toml
