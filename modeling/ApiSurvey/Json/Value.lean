/-! JSON values. -/
namespace ApiSurvey

/-- A JSON value. A number keeps its spelling, since nothing here computes with one. The members
of an object keep their order, and a key may occur more than once. -/
inductive Json where
  | null
  | bool (value : Bool)
  | number (spelling : String)
  | string (text : String)
  | array (items : List Json)
  | object (members : List (String × Json))
  deriving Inhabited

/-- The value of a key among the members of an object; the last one counts. -/
def Json.member? (key : String) : List (String × Json) → Option Json
  | [] => none
  | (name, value) :: rest =>
      match Json.member? key rest with
      | some later => some later
      | none => if name == key then some value else none

end ApiSurvey
