import ApiSurvey.Text.Quoted

/-! What can be wrong with a list of markers. -/
namespace ApiSurvey.MarkerList

inductive Problem where
  /-- The attribute is bare. -/
  | noList
  /-- A closer that closes no group, or a group of another kind. -/
  | unexpected (closer : Char)
  /-- The text ends inside a string literal. -/
  | unterminatedString
  /-- The text ends inside a group that this character would close. -/
  | missing (closer : Char)
  /-- Nothing stands between two commas. -/
  | emptyEntry
  /-- An item that starts with no path. -/
  | noPath (item : String)
  /-- An item in which neither one group nor a value follows the path. -/
  | trailing (item : String)
  deriving DecidableEq, Repr

def Problem.message : Problem → String
  | .noList => "expected a parenthesized marker list"
  | .unexpected closer => "unexpected " ++ Text.quoted (String.singleton closer)
  | .unterminatedString => "unterminated string literal"
  | .missing closer => "missing " ++ Text.quoted (String.singleton closer)
  | .emptyEntry => "empty marker entry"
  | .noPath item => "expected a marker path, found " ++ Text.quoted item
  | .trailing item => "unexpected tokens after marker path in " ++ Text.quoted item

end ApiSurvey.MarkerList
