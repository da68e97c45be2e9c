import ApiSurvey.Proofs.Sequence
import ApiSurvey.Settings.Fault
import Mathlib.Algebra.Group.Nat.Defs

/-! Settings that can be shown. What stands in a setting decides this, at whatever
depth: no integer may be too long to be written. Beyond that it is up to the host,
whose stack may not reach to the innermost values. A fault that shows a setting has
words exactly where the setting can be shown. -/
namespace ApiSurvey

namespace Setting

inductive Holds : Setting → Setting → Prop where
  | self (setting : Setting) : Holds setting setting
  | item {items : List Setting} {item inner : Setting} (hItem : item ∈ items)
      (hInner : Holds item inner) : Holds (.list items) inner
  | entry {entries : List (String × Setting)} {entry : String × Setting} {inner : Setting}
      (hEntry : entry ∈ entries) (hInner : Holds entry.2 inner) : Holds (.table entries) inner

/-- The integers in a setting have no more digits than may be written. -/
def Writable (setting : Setting) : Prop :=
  ∀ value, setting.Holds (.integer value) → value.natAbs < 10 ^ DigitLimit.most

/-- Induction over settings in which what stands in a list or a table is smaller. -/
theorem parts_induction {motive : Setting → Prop}
    (step : ∀ setting, (∀ items, setting = .list items → ∀ item ∈ items, motive item) →
      (∀ entries, setting = .table entries → ∀ entry ∈ entries, motive entry.2) → motive setting)
    (setting : Setting) : motive setting := by
  induction hSize : sizeOf setting using Nat.strongRecOn generalizing setting with
  | ind size ih =>
      apply step
      · rintro items rfl item hItem
        have hSmaller := List.sizeOf_lt_of_mem hItem
        rw [list.sizeOf_spec] at hSize
        exact ih (sizeOf item) (by omega) item rfl
      · rintro entries rfl ⟨key, value⟩ hEntry
        have hSmaller := List.sizeOf_lt_of_mem hEntry
        rw [table.sizeOf_spec] at hSize
        rw [Prod.mk.sizeOf_spec] at hSmaller
        exact ih (sizeOf value) (by omega) value rfl

/-- An integer has few enough digits if it is below the power of ten with so many
zeros. -/
theorem isExceededBy_eq_false_iff (value : Int) :
    DigitLimit.isExceededBy value = false ↔ value.natAbs < 10 ^ DigitLimit.most := by
  rw [DigitLimit.isExceededBy, decide_eq_false_iff_not, Nat.not_lt,
    Nat.length_toDigits_le_iff (by decide) (by decide)]

/-- An integer has a text if it has few enough digits. -/
theorem exists_displayInteger_iff (value : Int) :
    (∃ text, displayInteger value = .ok text) ↔ value.natAbs < 10 ^ DigitLimit.most := by
  rw [← isExceededBy_eq_false_iff, displayInteger]
  cases DigitLimit.isExceededBy value <;> simp

/-- The items of a list are put into words one by one. -/
theorem textsOf_eq_mapM (items : List Setting) : textsOf items = items.mapM textOf := by
  induction items with
  | nil => rw [textsOf, List.mapM_nil, Sequence.pure_eq_ok]
  | cons item items ih =>
      rw [textsOf, List.mapM_cons, ih]
      cases textOf item with
      | error cause => rfl
      | ok text => cases items.mapM textOf <;> rfl

/-- And so are the entries of a table, each with its key. -/
theorem entryTextsOf_eq_mapM (entries : List (String × Setting)) :
    entryTextsOf entries = entries.mapM fun entry =>
      (textOf entry.2).map (Text.quoted entry.1 ++ ": " ++ ·) := by
  induction entries with
  | nil => rw [entryTextsOf, List.mapM_nil, Sequence.pure_eq_ok]
  | cons entry entries ih =>
      obtain ⟨key, value⟩ := entry
      rw [entryTextsOf, List.mapM_cons, ih]
      cases textOf value with
      | error cause => rfl
      | ok text =>
          cases entries.mapM fun entry =>
            (textOf entry.2).map (Text.quoted entry.1 ++ ": " ++ ·) <;> rfl

theorem writable_integer_iff (value : Int) :
    (integer value).Writable ↔ value.natAbs < 10 ^ DigitLimit.most := by
  constructor
  · intro hWritable
    exact hWritable value (.self _)
  · rintro hShort _ ⟨⟩
    exact hShort

/-- What a list holds is in one of its items. -/
theorem writable_list_iff (items : List Setting) :
    (list items).Writable ↔ ∀ item ∈ items, item.Writable := by
  constructor
  · intro hWritable item hItem value hInner
    exact hWritable value (.item hItem hInner)
  · rintro hItems value ⟨⟩
    next hItem hInner => exact hItems _ hItem value hInner

/-- What a table holds is in the value of one of its entries. -/
theorem writable_table_iff (entries : List (String × Setting)) :
    (table entries).Writable ↔ ∀ entry ∈ entries, entry.2.Writable := by
  constructor
  · intro hWritable entry hEntry value hInner
    exact hWritable value (.entry hEntry hInner)
  · rintro hEntries value ⟨⟩
    next hEntry hInner => exact hEntries _ hEntry value hInner

/-- A value that is neither an integer nor made of others holds no integer. -/
theorem writable_plain {setting : Setting} (hInteger : ∀ value, setting ≠ .integer value)
    (hList : ∀ items, setting ≠ .list items) (hTable : ∀ entries, setting ≠ .table entries) :
    setting.Writable := by
  intro value hInner
  cases hInner with
  | self => exact absurd rfl (hInteger value)
  | item => exact absurd rfl (hList _)
  | entry => exact absurd rfl (hTable _)

/-- The text of a setting is found exactly if all integers in the setting can be
written. -/
theorem exists_textOf_iff (setting : Setting) :
    (∃ text, textOf setting = .ok text) ↔ setting.Writable := by
  induction setting using parts_induction with
  | step setting ihItems ihEntries =>
      cases setting with
      | integer value => rw [textOf, writable_integer_iff, exists_displayInteger_iff]
      | list items =>
          rw [textOf, Sequence.exists_map_eq_ok_iff, textsOf_eq_mapM,
            Sequence.exists_mapM_eq_ok_iff, writable_list_iff]
          exact forall₂_congr (ihItems items rfl)
      | table entries =>
          rw [textOf, Sequence.exists_map_eq_ok_iff, entryTextsOf_eq_mapM,
            Sequence.exists_mapM_eq_ok_iff, writable_table_iff]
          refine forall₂_congr fun entry hEntry => ?_
          rw [Sequence.exists_map_eq_ok_iff, ihEntries entries rfl entry hEntry]
      | bool value => cases value <;> simp [textOf, writable_plain]
      | null | float | string | date | time | moment => simp [textOf, writable_plain]

/-- A setting is shown if the host can follow it and its integers can be written. -/
theorem exists_display_iff (tooDeep : Setting → Bool) (setting : Setting) :
    (∃ text, setting.display tooDeep = .ok text) ↔
      tooDeep setting = false ∧ setting.Writable := by
  rw [display, ← exists_textOf_iff]
  cases tooDeep setting <;> simp

end Setting

/-- A fault that shows a setting behind some words. Whatever the host, there are these
words with the text of the setting, unless it cannot be shown: then there are none. -/
structure SettingsFault.Shows (fault : SettingsFault) (before : String) (value : Setting) :
    Prop where
  words : ∀ tooDeep text, value.display tooDeep = .ok text →
    fault.message tooDeep = .ok (before ++ text)
  some : ∀ tooDeep, (∃ words, fault.message tooDeep = .ok words) ↔
    tooDeep value = false ∧ value.Writable

/-- A fault whose words are some text and the setting behind it shows the setting. -/
theorem SettingsFault.shows_of_message {fault : SettingsFault} {before : String} {value : Setting}
    (hMessage : ∀ tooDeep, fault.message tooDeep = (value.display tooDeep).map (before ++ ·)) :
    fault.Shows before value where
  words := by
    intro tooDeep text hText
    rw [hMessage, hText, Sequence.map_ok]
  some := by
    intro tooDeep
    rw [hMessage, Sequence.exists_map_eq_ok_iff, Setting.exists_display_iff]

end ApiSurvey
