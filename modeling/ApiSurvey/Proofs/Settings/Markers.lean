import ApiSurvey.Proofs.FileTree.Update
import ApiSurvey.Proofs.Settings.Display
import ApiSurvey.Proofs.Text.Trim
import ApiSurvey.Settings.Markers

/-! Which marker names hold. An override that sets nothing is no override, while a key
of the settings counts whatever it is set to. The names are checked only after both
tables are laid over each other, so nothing that an override hides is ever checked. -/
namespace ApiSurvey

namespace SettingTable

/-- What an override table sets a key to. Nothing is no override. -/
def override? (overrides : SettingTable) (key : String) : Option Setting :=
  match overrides.get? key with
  | some .null => none
  | found => found

theorem get?_cons_self (key : String) (value : Setting) (table : SettingTable) :
    get? ((key, value) :: table) key = some value := by
  simp [get?]

theorem get?_cons_of_ne {key other : String} (hOther : other ≠ key) (value : Setting)
    (table : SettingTable) : get? ((key, value) :: table) other = get? table other := by
  simp [get?, List.lookup_cons, beq_false_of_ne hOther]

/-- A value that is there and not null overrides. -/
theorem override?_eq_of_get? {table : SettingTable} {key : String} {value : Setting}
    (hFound : table.get? key = some value) (hValue : value ≠ .null) :
    table.override? key = some value := by
  rw [override?, hFound]
  cases value with
  | null => exact absurd rfl hValue
  | _ => rfl

/-- A key that is not there overrides nothing. -/
theorem override?_of_not_mem {table : SettingTable} {key : String}
    (hKey : key ∉ table.map Prod.fst) : table.override? key = none := by
  have hNone : table.get? key = none := by
    rw [get?, List.lookup_eq_none_iff]
    intro entry hEntry
    rw [bne_iff_ne]
    rintro rfl
    exact hKey (List.mem_map_of_mem hEntry)
  rw [override?, hNone]

/-- A null is passed over when tables are laid over each other. -/
theorem laidOver_cons_null (key : String) (top below : SettingTable) :
    laidOver ((key, .null) :: top) below = top.laidOver below :=
  rfl

/-- Any other value takes the place of the one below. -/
theorem laidOver_cons_of_ne_null (key : String) {value : Setting} (hValue : value ≠ .null)
    (top below : SettingTable) :
    laidOver ((key, value) :: top) below = top.laidOver (below.set key value) := by
  cases value with
  | null => exact absurd rfl hValue
  | _ => rfl

/-- A key of one table laid over another is what the upper one sets it to, and else what
the lower one does. -/
theorem get?_laidOver {top : SettingTable} (hKeys : (top.map Prod.fst).Nodup)
    (below : SettingTable) (key : String) :
    (top.laidOver below).get? key = (top.override? key).or (below.get? key) := by
  -- Keys are distinct, so no later entry can undo what the first one sets.
  induction top generalizing below with
  | nil => rfl
  | cons entry top ih =>
      obtain ⟨first, value⟩ := entry
      rw [List.map_cons, List.nodup_cons] at hKeys
      obtain ⟨hFirst, hTop⟩ := hKeys
      by_cases hValue : value = .null
      · subst hValue
        rw [laidOver_cons_null, ih hTop]
        by_cases hKey : key = first
        · subst hKey
          rw [override?_of_not_mem hFirst, override?, get?_cons_self]
        · rw [override?, override?, get?_cons_of_ne hKey]
      · rw [laidOver_cons_of_ne_null first hValue, ih hTop]
        by_cases hKey : key = first
        · subst hKey
          have hSet : (below.set key value).get? key = some value :=
            Keyed.lookup_set_self below key value
          have hOverride : override? ((key, value) :: top) key = some value :=
            override?_eq_of_get? (get?_cons_self key value top) hValue
          rw [override?_of_not_mem hFirst, hSet, hOverride]
          rfl
        · have hSet : (below.set first value).get? key = below.get? key :=
            Keyed.lookup_set_of_ne below value hKey
          rw [hSet, override?, override?, get?_cons_of_ne hKey]

end SettingTable

namespace MarkerNames

/-- The keys of the marker names, in the order in which they are checked, with the names
that hold where nothing is set. -/
def slots : List (String × String) :=
  [("function", "utoipa"), ("model", "ToSchema"), ("response", "ToResponse")]

def inOrder (names : MarkerNames) : List String :=
  [names.function, names.model, names.response]

/-- The setting in force for a key: an override, else what the settings say, else the
name that holds where nothing is set. -/
def inForce (overrides settings : SettingTable) (slot : String × String) : Setting :=
  ((overrides.override? slot.1).or (settings.get? slot.1)).getD (.string slot.2)

/-- A setting that gives a marker name: a text with a character that is no blank. -/
def GivesName (value : Setting) : Prop :=
  ∃ text, value = .string text ∧ ∃ c ∈ text.toList, Text.isBlank c = false

/-- The name that a setting gives, without the blanks at its ends. -/
def nameOf : Setting → String
  | .string text => Text.trimmed text
  | _ => ""

/-- Something is left of a text exactly if not all of it is blank. -/
theorem trimmed_ne_empty_iff (text : String) :
    Text.trimmed text ≠ "" ↔ ∃ c ∈ text.toList, Text.isBlank c = false := by
  rw [Text.trimmed, ne_eq, String.ofList_eq_empty_iff, Text.trim_eq_nil_iff, Text.Blanks]
  simp

section Slot

variable {overrides settings : SettingTable} {slot : String × String}

/-- What a name is read from is the value in force. -/
theorem getD_laidOver (hKeys : (overrides.map Prod.fst).Nodup) :
    ((overrides.laidOver settings).get? slot.1).getD (.string slot.2) =
      inForce overrides settings slot := by
  rw [SettingTable.get?_laidOver hKeys, inForce]

/-- A value in force that gives a name is read as it. -/
theorem name_of_givesName (hKeys : (overrides.map Prod.fst).Nodup)
    (hName : GivesName (inForce overrides settings slot)) :
    MarkerNames.name (overrides.laidOver settings) slot.1 slot.2 =
      .ok (nameOf (inForce overrides settings slot)) := by
  obtain ⟨text, hText, hNonblank⟩ := hName
  have hKept : (Text.trimmed text).isEmpty = false := by
    simpa using (trimmed_ne_empty_iff text).mpr hNonblank
  simp [MarkerNames.name, getD_laidOver hKeys, hText, nameOf, hKept]

/-- Any other value in force is refused under the key of the name. -/
theorem name_of_not_givesName (hKeys : (overrides.map Prod.fst).Nodup)
    (hName : ¬ GivesName (inForce overrides settings slot)) :
    MarkerNames.name (overrides.laidOver settings) slot.1 slot.2 =
      .error (.badMarker slot.1 (inForce overrides settings slot)) := by
  rw [MarkerNames.name, getD_laidOver hKeys]
  cases hValue : inForce overrides settings slot with
  | string text =>
      have hBlank : (Text.trimmed text).isEmpty = true := by
        by_contra hKept
        rw [String.isEmpty_iff] at hKept
        exact hName ⟨text, hValue, (trimmed_ne_empty_iff text).mp hKept⟩
      simp [hBlank]
  | _ => rfl

theorem exists_name_iff (hKeys : (overrides.map Prod.fst).Nodup) :
    (∃ found, MarkerNames.name (overrides.laidOver settings) slot.1 slot.2 = .ok found) ↔
      GivesName (inForce overrides settings slot) := by
  by_cases hName : GivesName (inForce overrides settings slot)
  · simp [name_of_givesName hKeys hName, hName]
  · simp [name_of_not_givesName hKeys hName, hName]

/-- A name is refused for one reason only, and the fault holds the value in force. -/
theorem name_eq_error_iff (hKeys : (overrides.map Prod.fst).Nodup) (fault : SettingsFault) :
    MarkerNames.name (overrides.laidOver settings) slot.1 slot.2 = .error fault ↔
      ¬ GivesName (inForce overrides settings slot) ∧
        fault = .badMarker slot.1 (inForce overrides settings slot) := by
  by_cases hName : GivesName (inForce overrides settings slot)
  · simp [name_of_givesName hKeys hName, hName]
  · simp [name_of_not_givesName hKeys hName, hName, eq_comm]

/-- A name that is given is not empty and has no blanks around it. -/
theorem nameOf_tidy {value : Setting} (hName : GivesName value) :
    nameOf value ≠ "" ∧ (∀ c ∈ (nameOf value).toList.head?, Text.isBlank c = false) ∧
      ∀ c ∈ (nameOf value).toList.getLast?, Text.isBlank c = false := by
  obtain ⟨text, rfl, hNonblank⟩ := hName
  refine ⟨(trimmed_ne_empty_iff text).mpr hNonblank, ?_⟩
  rw [nameOf, Text.trimmed, String.toList_ofList]
  exact (Text.trim_eq_self_iff _).mp (Text.trim_trim _)

end Slot

/-- The names are read one after the other, in the order of their keys. -/
theorem map_inOrder_ofSettings (settings : SettingTable) :
    (ofSettings settings).map inOrder =
      slots.mapM fun slot => MarkerNames.name settings slot.1 slot.2 := by
  simp only [slots, List.mapM_cons, List.mapM_nil, Sequence.bind_eq_bind, Sequence.pure_eq_ok]
  rw [ofSettings, functionKey, modelKey, responseKey, default]
  cases MarkerNames.name settings "function" "utoipa" with
  | error fault => rfl
  | ok function =>
      cases MarkerNames.name settings "model" "ToSchema" with
      | error fault => rfl
      | ok model => cases MarkerNames.name settings "response" "ToResponse" <;> rfl

/-- Nothing but the three keys is read. -/
theorem ofSettings_congr {first second : SettingTable}
    (hSame : ∀ slot ∈ slots, first.get? slot.1 = second.get? slot.1) :
    ofSettings first = ofSettings second := by
  have hFunction := hSame ("function", "utoipa") (by simp [slots])
  have hModel := hSame ("model", "ToSchema") (by simp [slots])
  have hResponse := hSame ("response", "ToResponse") (by simp [slots])
  simp only [ofSettings, MarkerNames.name, functionKey, modelKey, responseKey, hFunction, hModel,
    hResponse]

section Resolve

variable {overrides settings : SettingTable}

/-- Names are refused for the first of the slots whose value in force gives none. -/
theorem resolve_eq_error_iff (hKeys : (overrides.map Prod.fst).Nodup) (fault : SettingsFault) :
    resolve overrides settings = .error fault ↔
      ∃ before slot after, slots = before ++ slot :: after ∧
        (∀ earlier ∈ before, GivesName (inForce overrides settings earlier)) ∧
        ¬ GivesName (inForce overrides settings slot) ∧
        fault = .badMarker slot.1 (inForce overrides settings slot) := by
  rw [resolve, ← Sequence.map_eq_error_iff inOrder, map_inOrder_ofSettings,
    Sequence.mapM_eq_error_iff]
  simp only [Sequence.FailsFirst, exists_name_iff hKeys, name_eq_error_iff hKeys]

theorem inOrder_injective {first second : MarkerNames} (hSame : first.inOrder = second.inOrder) :
    first = second := by
  cases first
  cases second
  simpa [inOrder] using hSame

/-- Names are found exactly if all slots have one. -/
theorem resolve_eq_ok_iff (hKeys : (overrides.map Prod.fst).Nodup) (names : MarkerNames) :
    resolve overrides settings = .ok names ↔
      (∀ slot ∈ slots, GivesName (inForce overrides settings slot)) ∧
        names.inOrder = slots.map fun slot => nameOf (inForce overrides settings slot) := by
  have hOrdered : resolve overrides settings = .ok names ↔
      (resolve overrides settings).map inOrder = .ok names.inOrder := by
    cases resolve overrides settings with
    | error fault => simp
    | ok other => simpa using ⟨congrArg inOrder, inOrder_injective⟩
  rw [hOrdered, resolve, map_inOrder_ofSettings]
  by_cases hNames : ∀ slot ∈ slots, GivesName (inForce overrides settings slot)
  · rw [Sequence.mapM_eq_ok_map fun slot hSlot => name_of_givesName hKeys (hNames slot hSlot)]
    rw [Except.ok.injEq]
    exact ⟨fun hOrder => ⟨hNames, hOrder.symm⟩, fun hOrder => hOrder.2.symm⟩
  · have hFails : ¬ ∃ found, (slots.mapM fun slot =>
        MarkerNames.name (overrides.laidOver settings) slot.1 slot.2) = .ok found := by
      simpa only [Sequence.exists_mapM_eq_ok_iff, exists_name_iff hKeys] using hNames
    simp only [hNames, false_and, iff_false]
    intro hRun
    exact hFails ⟨_, hRun⟩

/-- What the marker names come to, by the settings in force. -/
structure ResolveAnswers (overrides settings : SettingTable) : Prop where
  /-- There are names exactly if every setting in force gives one, and they are these. -/
  succeeded : ∀ names, resolve overrides settings = .ok names ↔
    (∀ slot ∈ slots, GivesName (inForce overrides settings slot)) ∧
      names.inOrder = slots.map fun slot => nameOf (inForce overrides settings slot)
  tidy : ∀ names, resolve overrides settings = .ok names → ∀ name ∈ names.inOrder,
    name ≠ "" ∧ (∀ c ∈ name.toList.head?, Text.isBlank c = false) ∧
      ∀ c ∈ name.toList.getLast?, Text.isBlank c = false
  /-- Otherwise the first key whose setting gives none is reported. -/
  failed : ∀ fault, resolve overrides settings = .error fault ↔
    ∃ before slot after, slots = before ++ slot :: after ∧
      (∀ earlier ∈ before, GivesName (inForce overrides settings earlier)) ∧
      ¬ GivesName (inForce overrides settings slot) ∧
      fault = .badMarker slot.1 (inForce overrides settings slot)
  /-- The words for this name the key and show the setting. -/
  words : ∀ key value, resolve overrides settings = .error (.badMarker key value) →
    (SettingsFault.badMarker key value).Shows
      ("markers." ++ key ++ " must be a non-empty string, got ") value
  /-- No other key of the tables has a say. -/
  others : ∀ more further : SettingTable, (more.map Prod.fst).Nodup →
    (∀ slot ∈ slots, more.get? slot.1 = overrides.get? slot.1 ∧
      further.get? slot.1 = settings.get? slot.1) →
    resolve more further = resolve overrides settings

end Resolve

/-- Overrides hide settings and settings hide the names that hold without them, before
anything is checked; the first bad name that is left is reported. -/
theorem names_are_checked_once_in_force {overrides : SettingTable}
    (hKeys : (overrides.map Prod.fst).Nodup) (settings : SettingTable) :
    ResolveAnswers overrides settings where
  succeeded := resolve_eq_ok_iff hKeys
  tidy := by
    intro names hResolve name hName
    obtain ⟨hNames, hOrder⟩ := (resolve_eq_ok_iff hKeys names).mp hResolve
    rw [hOrder] at hName
    obtain ⟨slot, hSlot, rfl⟩ := List.mem_map.mp hName
    exact nameOf_tidy (hNames slot hSlot)
  failed := resolve_eq_error_iff hKeys
  words := fun _ _ _ => SettingsFault.shows_of_message fun _ => rfl
  others := by
    intro more further hMore hSame
    refine ofSettings_congr ?_
    intro slot hSlot
    obtain ⟨hTop, hBelow⟩ := hSame slot hSlot
    rw [SettingTable.get?_laidOver hMore, SettingTable.get?_laidOver hKeys,
      SettingTable.override?, SettingTable.override?, hTop, hBelow]

/-- A model name that is no text does no harm below a good override, and an override
that sets nothing hides no function name. -/
theorem names_are_checked_once_in_force_under_overrides :
    ResolveAnswers [("model", .string " Schema\t"), ("function", .null)]
      [("function", .string "route"), ("model", .integer 3)] ∧
    resolve [("model", .string " Schema\t"), ("function", .null)]
      [("function", .string "route"), ("model", .integer 3)] =
        .ok ⟨"route", "Schema", "ToResponse"⟩ :=
  ⟨names_are_checked_once_in_force (by decide) _, rfl⟩

/-- A bad name can be reported without words: an integer of 4301 digits is no name, and
no host can show it either. -/
theorem long_integer_is_reported_without_words :
    ∃ fault, resolve [] [("function", .integer (10 ^ DigitLimit.most : Nat))] = .error fault ∧
      ∀ tooDeep, ¬ ∃ words, fault.message tooDeep = .ok words := by
  refine ⟨.badMarker "function" (.integer (10 ^ DigitLimit.most : Nat)), rfl, ?_⟩
  intro tooDeep
  rw [SettingsFault.message, Sequence.exists_map_eq_ok_iff, Setting.exists_display_iff]
  rintro ⟨-, hWritable⟩
  have hShort := hWritable _ (.self _)
  rw [Int.natAbs_natCast] at hShort
  exact Nat.lt_irrefl _ hShort

end MarkerNames

end ApiSurvey
