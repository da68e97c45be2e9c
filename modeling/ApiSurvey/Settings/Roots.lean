import ApiSurvey.Settings.Fault
import ApiSurvey.Survey.Collector
import ApiSurvey.Text.Blank
import ApiSurvey.Text.Word

/-! Roots from settings: `./src/routes from api, ./src/models` lists two of them, the first with a
scope name of its own. -/
namespace ApiSurvey.Root

/-- What follows the word `from` at the start of a text and the blanks behind it. -/
def afterFrom? : List Char → Option (List Char)
  | 'f' :: 'r' :: 'o' :: 'm' :: rest =>
      if Text.wordEndsBefore rest then some (rest.dropWhile Text.isBlank) else none
  | _ => none

/-- Splits a text at the first word `from` that has blanks before it. The blanks on both sides of
the word belong to neither part. -/
def splitFrom? : List Char → Option (List Char × List Char)
  | [] => none
  | c :: rest =>
      let here := if Text.isBlank c then afterFrom? (rest.dropWhile Text.isBlank) else none
      match here with
      | some scope => some ([], scope)
      | none => (splitFrom? rest).map fun (path, scope) => (c :: path, scope)

/-- The entries of a text: what stands between its commas, trimmed. -/
def entriesOf (text : String) : List (List Char) :=
  (text.toList.splitOn ',').map Text.trim

/-- The entries of a setting. In a list every item must be a text, and each may hold several
entries. -/
def entries : Setting → Except SettingsFault (List (List Char))
  | .null => .ok []
  | .string text => .ok (entriesOf text)
  | .list items => do
      let texts ← items.mapM fun item =>
        match item with
        | .string text => .ok text
        | item => .error (.badEntry item)
      return texts.flatMap entriesOf
  | value => .error (.badRoots value)

/-- The root of an entry that is not blank. -/
def ofEntry (scopeName : String) (entry : List Char) : Except SettingsFault Root :=
  let (path, scope) := match splitFrom? entry with
    | some (path, scope) => (Text.trim path, Text.trim scope)
    | none => (Text.trim entry, scopeName.toList)
  if path.isEmpty then .error (.noPath (String.ofList entry))
  else if scope.isEmpty then .error (.noScopeName (String.ofList entry))
  else .ok ⟨.ofText (String.ofList path), String.ofList scope⟩

/-- The roots of a setting. Blank entries are passed over, and an entry that names no scope has
the given one. -/
def ofSetting (value : Setting) (scopeName : String) : Except SettingsFault (List Root) := do
  let entries ← entries value
  (entries.filter (!·.isEmpty)).mapM (ofEntry scopeName)

end ApiSurvey.Root
