import ApiSurvey.Text.Blank
import ApiSurvey.Text.Pieces

/-! Qualified names. A name is written as segments between double colons, `a::b::Name<Args>`;
arguments in angle, round or square brackets are written after a segment and do not belong to the
name. -/
namespace ApiSurvey

/-- A qualified name: its segments, and whether it starts from the outermost scope. -/
structure QualifiedName where
  segments : List String
  isGlobal : Bool := false
  deriving DecidableEq, Repr

namespace QualifiedName

/-- The mark between two segments. -/
def separator : String := "::"

/-- A character that opens the arguments of a segment. -/
def opensArguments (c : Char) : Bool :=
  c == '<' || c == '(' || c == '['

/-- A character that closes arguments. -/
def closesArguments (c : Char) : Bool :=
  c == '>' || c == ')' || c == ']'

/-- The pieces of a text between the separators that stand in no arguments. `depth` counts the
arguments that are open, and `afterDash` tells whether a dash stands right before the text: the
arrow `->` closes nothing. Arguments are counted whatever their brackets, and a bracket that
closes nothing is passed over. -/
def piecesFrom (depth : Nat) (afterDash : Bool) : List Char → List (List Char)
  | [] => [[]]
  | c :: rest =>
      if opensArguments c then
        Text.consFirst c (piecesFrom (depth + 1) false rest)
      else if closesArguments c then
        let isArrow := c == '>' && afterDash
        Text.consFirst c (piecesFrom (if isArrow then depth else depth - 1) false rest)
      else
        match depth, c, rest with
        | 0, ':', ':' :: rest => [] :: piecesFrom 0 false rest
        | depth, c, rest => Text.consFirst c (piecesFrom depth (c == '-') rest)

def pieces (text : List Char) : List (List Char) :=
  piecesFrom 0 false text

/-- The identifier of a piece: what stands before its arguments, trimmed. -/
def identifier (piece : List Char) : List Char :=
  Text.trim (piece.takeWhile fun c => !opensArguments c)

/-- The text behind a separator at its start, if there is one. -/
def afterSeparator? : List Char → Option (List Char)
  | ':' :: ':' :: rest => some rest
  | _ => none

/-- The segments of a text: the identifiers of its pieces, without the empty ones. -/
def segmentsOf (text : List Char) : List String :=
  (((pieces text).map identifier).filter (· ≠ [])).map String.ofList

/-- Reads a name. A separator at the very start makes it global; every other place where an
identifier is missing is passed over. -/
def ofChars (text : List Char) : QualifiedName :=
  let text := Text.trim text
  match afterSeparator? text with
  | some rest => ⟨segmentsOf rest, true⟩
  | none => ⟨segmentsOf text, false⟩

/-- Reads a name from a string. -/
def ofText (text : String) : QualifiedName :=
  ofChars text.toList

def last (name : QualifiedName) : String :=
  name.segments.getLastD ""

/-- Whether the name is this one identifier and no more. -/
def isIdent (name : QualifiedName) (ident : String) : Bool :=
  !name.isGlobal && name.segments == [ident]

def text (name : QualifiedName) : String :=
  (if name.isGlobal then separator else "") ++ separator.intercalate name.segments

end QualifiedName

end ApiSurvey
