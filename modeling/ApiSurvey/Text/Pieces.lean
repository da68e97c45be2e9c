/-! Pieces of a text that is read from its end to its start. -/
namespace ApiSurvey.Text

def consFirst (c : Char) : List (List Char) → List (List Char)
  | [] => [[c]]
  | piece :: pieces => (c :: piece) :: pieces

end ApiSurvey.Text
