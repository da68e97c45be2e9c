import ApiSurvey.Source.Attribute
import ApiSurvey.MarkerList.Marker

/-! Lists of markers, as the arguments of an attribute write them. -/
namespace ApiSurvey

/-- A list of markers that cannot be read: the text of its attribute, the name of the declaration
that the attribute belongs to, and the reason. -/
structure MarkerFault where
  attributeText : String
  declaration : String
  problem : MarkerList.Problem
  deriving DecidableEq, Repr

def MarkerFault.message (fault : MarkerFault) : String :=
  "Failed to parse " ++ fault.attributeText ++ " on " ++ fault.declaration ++ ": " ++
    fault.problem.message

namespace MarkerList

/-- The items that stand for markers. A blank text has none, and one comma may follow the last. -/
def entries (items : List (List Char)) : List (List Char) :=
  if items == [[]] then []
  else if items.length > 1 && items.getLastD [] == [] then items.dropLast
  else items

/-- The markers of an argument text, or the first problem in it: a text that is not well nested
comes before any bad item, and bad items count from the left. -/
def ofChars (text : List Char) : Except Problem (List QualifiedName) := do
  let items ← items text
  (entries (items.map Text.trim)).mapM marker

end MarkerList

def Attribute.markers (attr : Attribute) :
    Except MarkerList.Problem (List QualifiedName) :=
  match attr.arguments with
  | none => .error .noList
  | some arguments => MarkerList.ofChars arguments.toList

/-- The markers that an attribute of a named declaration lists, or the fault to report. -/
def Attribute.markersOn (attr : Attribute) (declaration : String) :
    Except MarkerFault (List QualifiedName) :=
  attr.markers.mapError fun problem => ⟨attr.text, declaration, problem⟩

end ApiSurvey
