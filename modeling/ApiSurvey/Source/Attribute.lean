import ApiSurvey.Source.Name

/-! Attributes of declarations. -/
namespace ApiSurvey

/-- An attribute: its path and, unless it is bare, the text between its parentheses. -/
structure Attribute where
  path : QualifiedName
  arguments : Option String := none
  deriving DecidableEq, Repr

def Attribute.text (attr : Attribute) : String :=
  match attr.arguments with
  | none => "#[" ++ attr.path.text ++ "]"
  | some arguments => "#[" ++ attr.path.text ++ "(" ++ arguments ++ ")]"

/-- The attribute that lists markers. -/
def markerListName : String := "derive"

/-- The attribute that asks to leave a function or a data type out of a survey. -/
def ignoreName : String := "utoipa_ignore"

/-- An attribute that lists markers between its parentheses. -/
def Attribute.listsMarkers (attr : Attribute) : Bool :=
  attr.path.isIdent markerListName

/-- Whether one of the attributes asks to leave the declaration out. -/
def isIgnored (attributes : List Attribute) : Bool :=
  attributes.any fun attr => attr.path.isIdent ignoreName

end ApiSurvey
