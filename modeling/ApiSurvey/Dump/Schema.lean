import ApiSurvey.Dump.Basic
import ApiSurvey.Dump.Complaint
import ApiSurvey.Json.Reader
import ApiSurvey.Number.DigitLimit

/-! The schema of syntax dumps. A value is checked as a whole: complaints are collected in the
order of the fields, those about a field's inside before those about the next field. The rules
that tie several fields of an object together are checked only if every field is sound. Fields
that the schema does not know are passed over, and no value stands in for one of another type. -/
namespace ApiSurvey.Dump

def text : Json → Checked String
  | .string value => .ok value
  | _ => .complain .notString

/-- A value that may also be null. -/
def nullable {α : Type} (check : Json → Checked α) : Json → Checked (Option α)
  | .null => .ok none
  | json => (check json).map some

/-- The items of a list from a position on. -/
def listFrom {α : Type} (check : Json → Checked α) (position : Nat) :
    List Json → Checked (List α)
  | [] => .ok []
  | json :: rest =>
      Checked.apply ((Checked.within (.index position) (check json)).map List.cons)
        (listFrom check (position + 1) rest)

def list {α : Type} (check : Json → Checked α) : Json → Checked (List α)
  | .array items => listFrom check 0 items
  | _ => .complain .notList

/-- A field that must be there. -/
def required {α : Type} (members : List (String × Json)) (key : String)
    (check : Json → Checked α) : Checked α :=
  match Json.member? key members with
  | none => .error [⟨[.key key], .missing⟩]
  | some value => Checked.within (.key key) (check value)

/-- A field that has a default. -/
def optional {α : Type} (members : List (String × Json)) (key : String) (default : α)
    (check : Json → Checked α) : Checked α :=
  match Json.member? key members with
  | none => .ok default
  | some value => Checked.within (.key key) (check value)

def note : Json → Checked Note
  | .object members =>
      Checked.apply ((required members "path" text).map Note.mk)
        (optional members "arguments" none (nullable text))
  | _ => .complain .notObject

/-- The rules of an item: a named kind has a name, and an implementation block has a type. -/
def itemRules (item : Item) : Checked Item :=
  if namedKinds.contains item.kind && (item.name.getD "").isEmpty then
    .complain (.unnamed item.kind)
  else if item.kind == implementationKind && (item.selfType.getD "").isEmpty then
    .complain .noSelfType
  else .ok item

/-- An item, once its own items have been checked. -/
def itemWith (members : List (String × Json)) (items : Checked (Option (List Item))) :
    Checked Item :=
  let kind := (required members "kind" text).map Item.mk
  let named := Checked.apply kind (optional members "name" none (nullable text))
  let noted := Checked.apply named (optional members "annotations" [] (list note))
  let generic := Checked.apply noted (optional members "generics" [] (list text))
  let filled := Checked.apply generic items
  let typed := Checked.apply filled (optional members "self_type" none (nullable text))
  let whole := Checked.apply typed (optional members "trait" none (nullable text))
  whole.bind itemRules

mutual

def item : Json → Checked Item
  | .object members =>
      itemWith members (Checked.within (.key "items") ((itemsField? members).getD (.ok none)))
  | _ => .complain .notObject

/-- The items of an item, if it has such a field; the last one counts. -/
def itemsField? : List (String × Json) → Option (Checked (Option (List Item)))
  | [] => none
  | (key, value) :: rest =>
      match itemsField? rest with
      | some later => some later
      | none => if key == "items" then some (nullableItems value) else none

/-- A list of items or null. -/
def nullableItems : Json → Checked (Option (List Item))
  | .null => .ok none
  | .array items => (itemsFrom 0 items).map some
  | _ => .complain .notList

/-- The items of a list from a position on. -/
def itemsFrom (position : Nat) : List Json → Checked (List Item)
  | [] => .ok []
  | json :: rest =>
      Checked.apply ((Checked.within (.index position) (item json)).map List.cons)
        (itemsFrom (position + 1) rest)

end

/-- The items of an item are looked up like every other field. -/
theorem itemsField?_eq (members : List (String × Json)) :
    itemsField? members = (Json.member? "items" members).map nullableItems := by
  induction members with
  | nil => simp [itemsField?, Json.member?]
  | cons entry rest ih =>
      obtain ⟨key, value⟩ := entry
      simp only [itemsField?, Json.member?, ih]
      cases Json.member? "items" rest with
      | some later => rfl
      | none => by_cases h : (key == "items") = true <;> simp [h]

/-- Items are checked like the items of every other list. -/
theorem itemsFrom_eq (position : Nat) (items : List Json) :
    itemsFrom position items = listFrom item position items := by
  induction items generalizing position with
  | nil => simp [itemsFrom, listFrom]
  | cons json rest ih => simp [itemsFrom, listFrom, ih]

/-- The rule of a source file: a scope that is given has segments. -/
def sourceFileRules (source : SourceFile) : Checked SourceFile :=
  if source.scope == some [] then .complain .emptyScope else .ok source

def sourceFile : Json → Checked SourceFile
  | .object members =>
      let file := (required members "file" text).map SourceFile.mk
      let placed :=
        Checked.apply file (optional members "namespace" none (nullable (list text)))
      let whole := Checked.apply placed (optional members "items" [] (list item))
      whole.bind sourceFileRules
  | _ => .complain .notObject

def ofJson : Json → Checked Dump
  | .object members => (required members "files" (list sourceFile)).map Dump.mk
  | _ => .complain .notObject

/-- At most 200 containers of a dump may be open at a time, and an integer has no more digits than
one that is read elsewhere. -/
def limits : Json.Limits where
  containers := 200
  integerDigits := DigitLimit.most

def ofText (text : List Char) : Checked Dump :=
  match Json.read? limits text with
  | none => .complain .malformed
  | some json => ofJson json

end ApiSurvey.Dump
