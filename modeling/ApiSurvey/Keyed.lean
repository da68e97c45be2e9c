/-! Lists of values by key, in the order in which the keys were first set. -/
namespace ApiSurvey.Keyed

/-- Sets a key, in place if it was set before and else at the end. -/
def set {α : Type} (entries : List (String × α)) (key : String) (value : α) :
    List (String × α) :=
  match entries with
  | [] => [(key, value)]
  | (other, old) :: rest =>
      if other == key then (key, value) :: rest else (other, old) :: set rest key value

end ApiSurvey.Keyed
