/-! Delimiters and string literals in the argument text of an attribute. -/
namespace ApiSurvey.MarkerList

/-- The character that closes a group opened by this one, if it opens a group. -/
def closerOf? (c : Char) : Option Char :=
  if c == '(' then some ')'
  else if c == '[' then some ']'
  else if c == '{' then some '}'
  else none

def isCloser (c : Char) : Bool :=
  c == ')' || c == ']' || c == '}'

/-- A place between two characters: outside string literals, inside one, or inside one right
behind a backslash. -/
inductive Quotation where
  | outside
  | inside
  | escaped
  deriving DecidableEq, Repr

/-- The place behind a character of a string literal. A double quote ends the literal unless a
backslash stands before it, and a backslash protects one character. -/
def Quotation.next (quotation : Quotation) (c : Char) : Quotation :=
  match quotation with
  | .outside => if c == '"' then .inside else .outside
  | .inside => if c == '\\' then .escaped else if c == '"' then .outside else .inside
  | .escaped => .inside

/-- What stands behind a group. `depth` counts the groups that are open inside it, whatever their
delimiters, and the text starts right behind the group's opener. There is no answer if the group
is not closed. -/
def restOfGroup? (depth : Nat) (quotation : Quotation) : List Char → Option (List Char)
  | [] => none
  | c :: rest =>
      match quotation with
      | .outside =>
          if (closerOf? c).isSome then restOfGroup? (depth + 1) .outside rest
          else if isCloser c then
            match depth with
            | 0 => some rest
            | depth + 1 => restOfGroup? depth .outside rest
          else restOfGroup? depth (Quotation.outside.next c) rest
      | quotation => restOfGroup? depth (quotation.next c) rest

/-- Whether a text is one group: it starts with an opener, and nothing follows its closer. -/
def isSingleGroup : List Char → Bool
  | [] => false
  | c :: rest => (closerOf? c).isSome && restOfGroup? 0 .outside rest == some []

end ApiSurvey.MarkerList
