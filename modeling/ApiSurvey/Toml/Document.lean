import ApiSurvey.Toml.Value

/-! TOML documents. A document is a sequence of lines, each with a key and a value, the header of a
table, or the header of a further table in a list. What may still be added to a table depends on
how it came about: a header opens each table once, keys with dots add to tables that no header
opened, and lists and tables that stand on one line are closed for good. -/
namespace ApiSurvey.Toml

/-- A document that is being read. -/
structure Draft where
  root : SettingTable := []
  /-- The table that the lines below the last header add to. -/
  header : Key := []
  /-- Tables that no further header and no key with dots may open. -/
  opened : List Key := []
  /-- Tables that dotted keys went through since the last header. They count as opened from the
  next header on. -/
  pending : List Key := []
  /-- Values that nothing may be added to, at any depth. -/
  closed : List Key := []

/-- The tables that a dotted key goes through, below a header. -/
def tablesOnWay (header key : Key) : List Key :=
  (List.range (key.length - 1)).map fun count => header ++ key.take (count + 1)

namespace Draft

/-- Adds the value of a key below the current header. -/
def add? (draft : Draft) (key : Key) (value : Setting) : Option Draft :=
  let onWay := tablesOnWay draft.header key
  let table := draft.header ++ key.dropLast
  if onWay.any draft.opened.contains || isBelow draft.closed table then none
  else
    (updateTable? true (addNew? (key.getLastD "") value) draft.root table).map fun root =>
      { draft with
        root := root
        pending := onWay ++ draft.pending
        closed :=
          if isContainer value then (draft.header ++ key) :: draft.closed else draft.closed }

/-- Tables that dotted keys went through are opened once the next header starts. -/
def settle (draft : Draft) : Draft :=
  { draft with opened := draft.pending ++ draft.opened, pending := [] }

def openTable? (draft : Draft) (key : Key) : Option Draft :=
  let draft := draft.settle
  if draft.opened.contains key || isBelow draft.closed key then none
  else
    (updateTable? true some draft.root key).map fun root =>
      { draft with root := root, header := key, opened := key :: draft.opened }

/-- Adds an empty table to the list under a name, which is made if it is missing. -/
def appendTable? (name : String) (table : SettingTable) : Option SettingTable :=
  match table.get? name with
  | none => some (table.set name (.list [.table []]))
  | some (.list items) => some (table.set name (.list (items ++ [.table []])))
  | some _ => none

/-- Opens a further table in the list of a header. Whatever was opened or closed below the list
belongs to the table before it. -/
def openListTable? (draft : Draft) (key : Key) : Option Draft :=
  let draft := draft.settle
  if isBelow draft.closed key then none
  else
    (updateTable? true (appendTable? (key.getLastD "")) draft.root key.dropLast).map fun root =>
      { draft with
        root := root
        header := key
        opened := key :: draft.opened.filter (!key.isPrefixOf ·)
        closed := draft.closed.filter (!key.isPrefixOf ·) }

end Draft

/-- A line that starts with a key or a bracket, up to the blanks behind it. The whole text has at
most so many characters. -/
def statement (length : Nat) (draft : Draft) (text : List Char) :
    Except Failure (Draft × List Char) :=
  match text with
  | '[' :: '[' :: rest => piece do
      let (key, rest) ← key? length (skipBlanks rest)
      let rest ← expect? ']' (← expect? ']' rest)
      return (← draft.openListTable? key, rest)
  | '[' :: rest => piece do
      let (key, rest) ← key? length (skipBlanks rest)
      let rest ← expect? ']' rest
      return (← draft.openTable? key, rest)
  | text => do
      let (key, rest) ← piece (key? length text)
      let (value, rest) ← value length (skipBlanks (← piece (expect? '=' rest)))
      return (← piece (draft.add? key value), rest)

/-- The lines of a document. Every round takes the end of a line away, so what is left is never
longer than the rounds that are left. -/
def linesWith : (rounds : Nat) → Draft → List Char → Except Failure Draft
  | 0, _, _ => .error .malformed
  | rounds + 1, draft, text =>
      match skipBlanks text with
      | [] => .ok draft
      | '\n' :: rest => linesWith rounds draft rest
      | c :: rest => do
          let (draft, rest) ←
            if c == '#' then pure (draft, c :: rest)
            else statement rounds draft (c :: rest)
          match ← piece (skipComment? (skipBlanks rest)) with
          | [] => return draft
          | '\n' :: rest => linesWith rounds draft rest
          | _ => throw .malformed

/-- The table of a document, or what stops its reading. `tooDeep` says in which texts values stand
in each other more deeply than the host can follow. -/
def read (tooDeep : List Char → Bool) (text : List Char) : Except Failure SettingTable :=
  if tooDeep text then .error .tooDeep
  else (linesWith (text.length + 1) {} text).map Draft.root

end ApiSurvey.Toml
