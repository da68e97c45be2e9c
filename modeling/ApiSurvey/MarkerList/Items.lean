import ApiSurvey.MarkerList.Delimiter
import ApiSurvey.MarkerList.Problem
import ApiSurvey.Text.Pieces

/-! The items of an argument text: what stands between the commas that are in no group and in no
string literal. -/
namespace ApiSurvey.MarkerList

/-- The items of the rest of a text. `closers` are the closers of the groups that are open, the
innermost first. A closer must match the innermost group; at the end of the text every string
literal and every group must be closed. -/
def itemsFrom (closers : List Char) (quotation : Quotation) :
    List Char → Except Problem (List (List Char))
  | [] =>
      match quotation, closers with
      | .outside, [] => .ok [[]]
      | .outside, closer :: _ => .error (.missing closer)
      | _, _ => .error .unterminatedString
  | c :: rest =>
      match quotation with
      | .outside =>
          match closerOf? c with
          | some closer => (itemsFrom (closer :: closers) .outside rest).map (Text.consFirst c)
          | none =>
              if isCloser c then
                match closers with
                | [] => .error (.unexpected c)
                | closer :: outer =>
                    if closer == c then (itemsFrom outer .outside rest).map (Text.consFirst c)
                    else .error (.unexpected c)
              else if c == ',' && closers.isEmpty then
                (itemsFrom [] .outside rest).map ([] :: ·)
              else (itemsFrom closers (Quotation.outside.next c) rest).map (Text.consFirst c)
      | quotation => (itemsFrom closers (quotation.next c) rest).map (Text.consFirst c)

/-- The items of a whole text; there is always at least one. -/
def items (text : List Char) : Except Problem (List (List Char)) :=
  itemsFrom [] .outside text

end ApiSurvey.MarkerList
