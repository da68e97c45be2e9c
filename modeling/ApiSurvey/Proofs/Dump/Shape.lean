import ApiSurvey.Dump.Schema

/-! The shapes that a dump is made of: texts, lists, and objects with a table of
fields and rules that tie some of them together. Which values fit a shape, and
which places of a value breach it, is said here without checking anything. -/
namespace ApiSurvey

/-- The value of a key is one of the members. -/
theorem Json.mem_of_member?_eq_some {key : String} {members : List (String × Json)} {value : Json}
    (hMember : Json.member? key members = some value) : (key, value) ∈ members := by
  induction members with
  | nil => simp [Json.member?] at hMember
  | cons entry rest ih =>
      obtain ⟨name, own⟩ := entry
      rw [Json.member?] at hMember
      cases hLater : Json.member? key rest with
      | some later =>
          rw [hLater] at hMember
          cases hMember
          exact List.mem_cons_of_mem _ (ih hLater)
      | none =>
          by_cases hName : name = key
          · subst hName
            obtain rfl : own = value := by simpa [hLater] using hMember
            exact List.mem_cons_self
          · simp [hLater, hName] at hMember

/-- Induction over values in which only the items of lists that are fields of an
object are smaller. -/
theorem Json.items_induction {motive : Json → Prop}
    (step : ∀ json, (∀ members key items, json = .object members →
      Json.member? key members = some (.array items) → ∀ inner ∈ items, motive inner) →
        motive json)
    (json : Json) : motive json := by
  induction hSize : sizeOf json using Nat.strongRecOn generalizing json with
  | ind size ih =>
      apply step
      rintro members key items rfl hMember inner hInner
      have hItem := List.sizeOf_lt_of_mem hInner
      have hEntry := List.sizeOf_lt_of_mem (Json.mem_of_member?_eq_some hMember)
      simp only [Json.object.sizeOf_spec, Json.array.sizeOf_spec, Prod.mk.sizeOf_spec] at *
      exact ih (sizeOf inner) (by omega) inner rfl

namespace Dump

/-- The kinds of objects in a dump. -/
inductive Record where
  | note
  | item
  | sourceFile
  | dump

inductive Shape where
  | text
  | nullable (shape : Shape)
  | list (shape : Shape)
  | record (record : Record)

/-- A field of an object. One that is not required may be absent. -/
structure Field where
  key : String
  isRequired : Bool
  shape : Shape

/-- The fields of an object in order. All other fields are passed over. -/
def Record.fields : Record → List Field
  | .note => [⟨"path", true, .text⟩, ⟨"arguments", false, .nullable .text⟩]
  | .item =>
      [⟨"kind", true, .text⟩, ⟨"name", false, .nullable .text⟩,
        ⟨"annotations", false, .list (.record .note)⟩, ⟨"generics", false, .list .text⟩,
        ⟨"items", false, .nullable (.list (.record .item))⟩,
        ⟨"self_type", false, .nullable .text⟩, ⟨"trait", false, .nullable .text⟩]
  | .sourceFile =>
      [⟨"file", true, .text⟩, ⟨"namespace", false, .nullable (.list .text)⟩,
        ⟨"items", false, .list (.record .item)⟩]
  | .dump => [⟨"files", true, .list (.record .sourceFile)⟩]

/-- A field that holds a text with at least one character. -/
def HasText (members : List (String × Json)) (key : String) : Prop :=
  ∃ text, Json.member? key members = some (.string text) ∧ text ≠ ""

/-- How an object whose fields are as they should be can still be wrong: a
module, a function or a data type without a name, an implementation block
without a type, and a scope that is given but has no segments. -/
inductive Record.BreaksRule (members : List (String × Json)) : Record → Complaint.Cause → Prop where
  | unnamed {kind : String} (named : kind ∈ ["mod", "fn", "struct", "enum"])
      (found : Json.member? "kind" members = some (.string kind))
      (nameless : ¬ HasText members "name") : BreaksRule members .item (.unnamed kind)
  | noSelfType (found : Json.member? "kind" members = some (.string "impl"))
      (typeless : ¬ HasText members "self_type") : BreaksRule members .item .noSelfType
  | emptyScope (empty : Json.member? "namespace" members = some (.array [])) :
      BreaksRule members .sourceFile .emptyScope

/-- A value of a shape, down to its innermost items. -/
inductive Shape.Fits : Shape → Json → Prop where
  | text (text : String) : Fits .text (.string text)
  | null (shape : Shape) : Fits (.nullable shape) .null
  | nullable {shape : Shape} {json : Json} (inside : Fits shape json) : Fits (.nullable shape) json
  | list {shape : Shape} {items : List Json} (each : ∀ item ∈ items, Fits shape item) :
      Fits (.list shape) (.array items)
  | record {record : Record} {members : List (String × Json)}
      (present : ∀ field ∈ record.fields, field.isRequired = true →
        Json.member? field.key members ≠ none)
      (each : ∀ field ∈ record.fields, ∀ value, Json.member? field.key members = some value →
        Fits field.shape value)
      (rules : ∀ cause, ¬ record.BreaksRule members cause) :
      Fits (.record record) (.object members)

/-- A field that is as it should be, whatever the rest of its object. -/
def Field.Fits (members : List (String × Json)) (field : Field) : Prop :=
  (field.isRequired = true → Json.member? field.key members ≠ none) ∧
    ∀ value, Json.member? field.key members = some value → field.shape.Fits value

/-- What is wrong with a value, and the steps that lead to the place. The rules
count only in an object all of whose fields are as they should be. -/
inductive Shape.Breach : Shape → Json → List Step → Complaint.Cause → Prop where
  | notText {json : Json} (other : ∀ text, json ≠ .string text) : Breach .text json [] .notString
  | nullable {shape : Shape} {json : Json} {place : List Step} {cause : Complaint.Cause}
      (notNull : json ≠ .null) (inside : Breach shape json place cause) :
      Breach (.nullable shape) json place cause
  | notList {shape : Shape} {json : Json} (other : ∀ items, json ≠ .array items) :
      Breach (.list shape) json [] .notList
  | inList {shape : Shape} {items : List Json} {position : Nat} {item : Json}
      {place : List Step} {cause : Complaint.Cause} (found : items[position]? = some item)
      (inside : Breach shape item place cause) :
      Breach (.list shape) (.array items) (.index position :: place) cause
  | notObject {record : Record} {json : Json} (other : ∀ members, json ≠ .object members) :
      Breach (.record record) json [] .notObject
  | missing {record : Record} {members : List (String × Json)} {field : Field}
      (mem : field ∈ record.fields) (required : field.isRequired = true)
      (absent : Json.member? field.key members = none) :
      Breach (.record record) (.object members) [.key field.key] .missing
  | inField {record : Record} {members : List (String × Json)} {field : Field} {value : Json}
      {place : List Step} {cause : Complaint.Cause} (mem : field ∈ record.fields)
      (found : Json.member? field.key members = some value)
      (inside : Breach field.shape value place cause) :
      Breach (.record record) (.object members) (.key field.key :: place) cause
  | rule {record : Record} {members : List (String × Json)} {cause : Complaint.Cause}
      (sound : ∀ field ∈ record.fields, field.Fits members)
      (broken : record.BreaksRule members cause) :
      Breach (.record record) (.object members) [] cause

/-- The order of the places in a value: items as they are listed and fields as the
kind of object names them, with all that is inside a field before the next field. -/
inductive Shape.Before : Shape → List Step → List Step → Prop where
  | nullable {shape : Shape} {first second : List Step} (inside : Before shape first second) :
      Before (.nullable shape) first second
  | acrossItems {shape : Shape} {earlier later : Nat} {first second : List Step}
      (less : earlier < later) :
      Before (.list shape) (.index earlier :: first) (.index later :: second)
  | inItem {shape : Shape} {position : Nat} {first second : List Step}
      (inside : Before shape first second) :
      Before (.list shape) (.index position :: first) (.index position :: second)
  | acrossFields {record : Record} {earlier later : Field} {first second : List Step}
      (listed : [earlier, later].Sublist record.fields) :
      Before (.record record) (.key earlier.key :: first) (.key later.key :: second)
  | inField {record : Record} {field : Field} {first second : List Step}
      (mem : field ∈ record.fields) (inside : Before field.shape first second) :
      Before (.record record) (.key field.key :: first) (.key field.key :: second)

/-- No two fields of a kind of object have the same key. -/
theorem Record.nodup_keys (record : Record) : (record.fields.map Field.key).Nodup := by
  cases record <;> decide

/-- No place comes before itself. -/
theorem Shape.Before.ne {shape : Shape} {first second : List Step}
    (hBefore : shape.Before first second) : first ≠ second := by
  induction hBefore with
  | nullable inside ih => exact ih
  | acrossItems less => simp [Nat.ne_of_lt less]
  | inItem inside ih => simpa using ih
  | @acrossFields record earlier later first second listed =>
      have hKeys := (listed.map Field.key).nodup record.nodup_keys
      have hKey : earlier.key ≠ later.key := by simpa using hKeys
      simp [hKey]
  | inField mem inside ih => simpa using ih

end Dump

end ApiSurvey
