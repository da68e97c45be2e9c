import ApiSurvey.Source.Name
import ApiSurvey.MarkerList.Items

/-! Reading one item of a marker list: a path, followed by nothing, by one group, or by an equals
sign and a value. -/
namespace ApiSurvey.MarkerList

/-- A character that an identifier can start with. -/
def startsIdentifier (c : Char) : Bool :=
  c.isAlpha || c == '_'

/-- A character that can follow in an identifier. -/
def continuesIdentifier (c : Char) : Bool :=
  c.isAlphanum || c == '_'

/-- An identifier without a raw mark at the start of a text, and what follows it. -/
def plainIdentifier? : List Char → Option (List Char × List Char)
  | [] => none
  | c :: rest =>
      if startsIdentifier c then
        some (c :: rest.takeWhile continuesIdentifier, rest.dropWhile continuesIdentifier)
      else none

/-- An identifier at the start of a text, and what follows it. The raw mark `r#` belongs to the
identifier behind it; where none follows, `r` is an identifier of its own. -/
def identifier? (text : List Char) : Option (List Char × List Char) :=
  match text with
  | 'r' :: '#' :: rest =>
      match plainIdentifier? rest with
      | some (ident, rest) => some ('r' :: '#' :: ident, rest)
      | none => plainIdentifier? text
  | text => plainIdentifier? text

/-- The text behind a separator, with blanks allowed on both sides of it. -/
def afterSpacedSeparator? (text : List Char) : Option (List Char) :=
  (QualifiedName.afterSeparator? (text.dropWhile Text.isBlank)).map (·.dropWhile Text.isBlank)

/-- The further identifiers of a path, each behind a separator, and what follows the last one.
Every round takes at least the separator away, so a text has no more rounds than characters. -/
def moreIdentifiers : (rounds : Nat) → List Char → List (List Char) × List Char
  | 0, text => ([], text)
  | rounds + 1, text =>
      match (afterSpacedSeparator? text).bind identifier? with
      | none => ([], text)
      | some (ident, rest) =>
          let (idents, rest) := moreIdentifiers rounds rest
          (ident :: idents, rest)

/-- The path at the start of a text, and what follows it. -/
def path? (text : List Char) : Option (QualifiedName × List Char) :=
  let (isGlobal, start) := match QualifiedName.afterSeparator? text with
    | some rest => (true, rest.dropWhile Text.isBlank)
    | none => (false, text)
  (identifier? start).map fun (ident, rest) =>
    let (idents, rest) := moreIdentifiers rest.length rest
    (⟨(ident :: idents).map String.ofList, isGlobal⟩, rest)

/-- An equals sign with something behind it. -/
def isNameValue : List Char → Bool
  | '=' :: value => !Text.isBlankText value
  | _ => false

/-- What may follow a path, blanks around it left out. -/
def isSuffix (text : List Char) : Bool :=
  text.isEmpty || isSingleGroup text || isNameValue text

/-- The marker of a trimmed item. -/
def marker (item : List Char) : Except Problem QualifiedName :=
  if item.isEmpty then .error .emptyEntry
  else match path? item with
    | none => .error (.noPath (String.ofList item))
    | some (path, rest) =>
        if isSuffix (Text.trim rest) then .ok path
        else .error (.trailing (String.ofList item))

end ApiSurvey.MarkerList
