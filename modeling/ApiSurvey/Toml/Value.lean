import ApiSurvey.Toml.Lexeme
import ApiSurvey.Toml.Number
import ApiSurvey.Toml.Time

/-! Values of a TOML document. -/
namespace ApiSurvey.Toml

/-- A key with dots: the names of the tables on the way, and the name in the last one. -/
abbrev Key := List String

/-- Changes the table that a key leads to. Tables that are missing on the way are made; where
`entersLists` holds, the way goes through the last table of a list. There is no answer if anything
else stands on the way. -/
def updateTable? (entersLists : Bool) (change : SettingTable → Option SettingTable)
    (table : SettingTable) : Key → Option SettingTable
  | [] => change table
  | name :: key =>
      match table.get? name with
      | none =>
          (updateTable? entersLists change [] key).map fun inner => table.set name (.table inner)
      | some (.table inner) =>
          (updateTable? entersLists change inner key).map fun inner => table.set name (.table inner)
      | some (.list items) =>
          match entersLists, items.getLast? with
          | true, some (.table inner) =>
              (updateTable? entersLists change inner key).map fun inner =>
                table.set name (.list (items.dropLast ++ [.table inner]))
          | _, _ => none
      | some _ => none

/-- Sets a name that is not set yet. -/
def addNew? (name : String) (value : Setting) (table : SettingTable) : Option SettingTable :=
  if (table.get? name).isSome then none else some (table.set name value)

/-- Whether a value is a list or a table, to which nothing may be added later. -/
def isContainer : Setting → Bool
  | .list _ => true
  | .table _ => true
  | _ => false

/-- Whether a key is one of these or leads through one of them. -/
def isBelow (keys : List Key) (key : Key) : Bool :=
  keys.any fun above => above.isPrefixOf key

/-- A value that holds no others. A text that starts with a date stands for no other value, also
if there is no such day. -/
def scalar (text : List Char) : Except Failure (Setting × List Char) :=
  match text with
  | 't' :: 'r' :: 'u' :: 'e' :: rest => .ok (.bool true, rest)
  | 'f' :: 'a' :: 'l' :: 's' :: 'e' :: rest => .ok (.bool false, rest)
  | text =>
      match date? text with
      | some (date, rest) => if date.isValid then .ok (moment date rest) else .error .malformed
      | none =>
          match time? text with
          | some (time, rest) => .ok (.time time, rest)
          | none => number text

mutual

/-- A value at the start of a text. `fuel` bounds the steps of all readers of nested values. -/
def valueWith : (fuel : Nat) → List Char → Except Failure (Setting × List Char)
  | 0, _ => .error .malformed
  | fuel + 1, text =>
      match text with
      | '[' :: rest => do
          let (items, rest) ← itemsWith fuel (← piece (skipGap? false rest))
          return (.list items, rest)
      | '{' :: rest => do
          match skipBlanks rest with
          | '}' :: rest => return (.table [], rest)
          | rest =>
              let (entries, rest) ← entriesWith fuel [] [] rest
              return (.table entries, rest)
      | text =>
          if text.head? == some '"' || text.head? == some '\'' then do
            let (string, rest) ← piece (string? text)
            return (.string (String.ofList string), rest)
          else scalar text

/-- The items of a list up to its end. Line ends and comments may stand between them, and a comma
behind the last one. -/
def itemsWith : (fuel : Nat) → List Char → Except Failure (List Setting × List Char)
  | 0, _ => .error .malformed
  | _ + 1, ']' :: rest => .ok ([], rest)
  | fuel + 1, text => do
      let (item, rest) ← valueWith fuel text
      match ← piece (skipGap? false rest) with
      | ']' :: rest => return ([item], rest)
      | ',' :: rest =>
          let (items, rest) ← itemsWith fuel (← piece (skipGap? false rest))
          return (item :: items, rest)
      | _ => throw .malformed

/-- The entries of an inline table up to its end, added to those read before. `closed` are the keys
of the lists and tables among them. -/
def entriesWith : (fuel : Nat) → List Key → SettingTable → List Char →
    Except Failure (SettingTable × List Char)
  | 0, _, _, _ => .error .malformed
  | fuel + 1, closed, table, text => do
      let (key, rest) ← piece (key? fuel text)
      let (value, rest) ← valueWith fuel (skipBlanks (← piece (expect? '=' rest)))
      if isBelow closed key then throw .malformed
      let table ← piece (updateTable? false (addNew? (key.getLastD "") value) table key.dropLast)
      let closed := if isContainer value then key :: closed else closed
      match skipBlanks rest with
      | '}' :: rest => return (table, rest)
      | ',' :: rest => entriesWith fuel closed table (skipBlanks rest)
      | _ => throw .malformed

end

/-- A value at the start of a text of at most so many characters. Every step but one in two takes a
character away. -/
def value (length : Nat) (text : List Char) : Except Failure (Setting × List Char) :=
  valueWith (2 * length + 2) text

end ApiSurvey.Toml
