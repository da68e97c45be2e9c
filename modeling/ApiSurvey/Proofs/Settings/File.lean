import ApiSurvey.Proofs.Disk.Read
import ApiSurvey.Proofs.Text.Utf8
import ApiSurvey.Settings.File

/-! Settings files that do not load. A file that is not there, or that is no document,
counts as an empty one. Bytes that are no text do not: the fault of the decoder is
passed on, and so is the one of a location that cannot be asked for. -/
namespace ApiSurvey

namespace Settings

variable {tooDeep : List Char → Bool} {disk : Disk} {location : Location}

/-- The bytes at a location are those of a text. -/
def HoldsText (disk : Disk) (location : Location) (text : String) : Prop :=
  disk.readBytes location = .ok (Text.Utf8.encode text)

/-- There are bytes at a location, and they are not those of a text. -/
def HoldsNoText (disk : Disk) (location : Location) : Prop :=
  ∃ bytes, disk.readBytes location = .ok bytes ∧ ∀ text, bytes ≠ Text.Utf8.encode text

/-- The text at a location is more than its reader can take: an integer in it is too
long, or values in it stand in each other more deeply than the host can follow. -/
def ExceedsReader (tooDeep : List Char → Bool) (disk : Disk) (location : Location) : Prop :=
  ∃ text failure, HoldsText disk location text ∧
    Toml.read tooDeep (Text.unifyLines text.toList) = .error failure ∧ failure ≠ .malformed

theorem load_of_hasNull (hNull : location.hasNull = true) :
    load tooDeep disk location = .error (.nullCharacter location) := by
  rw [load, (Disk.readBytes_eq_nullCharacter_iff disk location).mpr hNull]

/-- A file that cannot be read has no settings, and that is no failure. -/
theorem load_of_unreadable {failure : FileTree.Failure} (hNull : location.hasNull = false)
    (hRead : disk.readBytes location = .error failure) : load tooDeep disk location = .ok [] := by
  rw [load, hRead]
  cases failure with
  | nullCharacter => exact absurd hRead (Disk.readBytes_ne_nullCharacter hNull disk)
  | _ => rfl

/-- Bytes that are no text do not load. -/
theorem load_of_noText (hNone : HoldsNoText disk location) :
    ∃ fault, load tooDeep disk location = .error (.encoding fault) := by
  obtain ⟨bytes, hRead, hBytes⟩ := hNone
  cases hDecode : Text.Utf8.decode bytes with
  | ok text => exact absurd ((Text.Utf8.decode_eq_ok_iff bytes text).mp hDecode) (hBytes _)
  | error fault => exact ⟨fault, by simp [load, hRead, hDecode]⟩

/-- A file with a text has the settings of this text, in which all line ends are
alike. -/
theorem load_of_text {text : String} (hText : HoldsText disk location text) :
    load tooDeep disk location = ofText tooDeep (Text.unifyLines text.toList) := by
  have hDecode : Text.Utf8.decode (Text.Utf8.encode text) = .ok text.toList := by
    rw [Text.Utf8.decode_eq_ok_iff, String.ofList_toList]
  rw [HoldsText] at hText
  simp [load, hText, hDecode]

/-- A text has no settings to load only if the reader was stopped by a limit; a
malformed one has none. -/
theorem ofText_eq_error_iff (text : List Char) :
    (∃ fault, ofText tooDeep text = .error fault) ↔
      ∃ failure, Toml.read tooDeep text = .error failure ∧ failure ≠ .malformed := by
  rw [ofText]
  cases Toml.read tooDeep text with
  | ok table => simp
  | error failure => cases failure <;> simp

/-- What stands at a location falls into one of four cases. -/
theorem holds_cases (disk : Disk) (location : Location) :
    location.hasNull = true ∨
      (location.hasNull = false ∧ ∃ failure, disk.readBytes location = .error failure) ∨
      HoldsNoText disk location ∨ ∃ text, HoldsText disk location text := by
  cases hRead : disk.readBytes location with
  | error failure =>
      cases hNull : location.hasNull with
      | true => exact .inl rfl
      | false => exact .inr (.inl ⟨rfl, failure, rfl⟩)
  | ok bytes =>
      by_cases hText : ∃ text, bytes = Text.Utf8.encode text
      · obtain ⟨text, rfl⟩ := hText
        exact .inr (.inr (.inr ⟨text, hRead⟩))
      · exact .inr (.inr (.inl ⟨bytes, hRead, not_exists.mp hText⟩))

/-- What loading the settings at a location comes to, by what stands there. -/
structure LoadAnswers (tooDeep : List Char → Bool) (disk : Disk) (location : Location) :
    Prop where
  /-- There are three reasons to fail. The last one is a limit of the reader of documents. -/
  failed : (∃ fault, load tooDeep disk location = .error fault) ↔
    location.hasNull = true ∨ HoldsNoText disk location ∨ ExceedsReader tooDeep disk location
  /-- The fault that is passed on is that of the location or of the decoder. -/
  unaskable : location.hasNull = true →
    load tooDeep disk location = .error (.nullCharacter location)
  undecodable : HoldsNoText disk location →
    ∃ fault, load tooDeep disk location = .error (.encoding fault)
  /-- Everything else that is wrong with a file makes it an empty one. -/
  unreadable : location.hasNull = false → ∀ failure,
    disk.readBytes location = .error failure → load tooDeep disk location = .ok []
  malformed : ∀ text, HoldsText disk location text →
    Toml.read tooDeep (Text.unifyLines text.toList) = .error .malformed →
      load tooDeep disk location = .ok []
  document : ∀ text table, HoldsText disk location text →
    Toml.read tooDeep (Text.unifyLines text.toList) = .ok table →
      load tooDeep disk location = .ok table
  /-- The sections fail where the file does, and otherwise each is a table. -/
  sections : ∀ table, load tooDeep disk location = .ok table →
    markers tooDeep disk location = .ok (table.subtable "markers") ∧
      roots tooDeep disk location = .ok (table.subtable "discover")
  noSections : ∀ fault, load tooDeep disk location = .error fault →
    markers tooDeep disk location = .error fault ∧ roots tooDeep disk location = .error fault

/-- The three ways in which settings fail to load. -/
theorem load_eq_error_iff :
    (∃ fault, load tooDeep disk location = .error fault) ↔
      location.hasNull = true ∨ HoldsNoText disk location ∨
        ExceedsReader tooDeep disk location := by
  constructor
  · rintro ⟨fault, hFault⟩
    rcases holds_cases disk location with hNull | ⟨hNull, failure, hRead⟩ | hNone | ⟨text, hText⟩
    · exact .inl hNull
    · rw [load_of_unreadable hNull hRead] at hFault
      cases hFault
    · exact .inr (.inl hNone)
    · rw [load_of_text hText] at hFault
      obtain ⟨failure, hToml, hLimit⟩ := (ofText_eq_error_iff _).mp ⟨fault, hFault⟩
      exact .inr (.inr ⟨text, failure, hText, hToml, hLimit⟩)
  · rintro (hNull | hNone | ⟨text, failure, hText, hToml, hLimit⟩)
    · exact ⟨_, load_of_hasNull hNull⟩
    · obtain ⟨fault, hFault⟩ := load_of_noText hNone
      exact ⟨_, hFault⟩
    · rw [load_of_text hText]
      exact (ofText_eq_error_iff _).mpr ⟨failure, hToml, hLimit⟩

/-- The settings of a directory or of a given file are lost only where they are no text,
where the reader's limits end, or where the location cannot be asked for. A file that is
missing or malformed is an empty table, and so is every section of it. -/
theorem load_fails_only_without_text (tooDeep : List Char → Bool) (disk : Disk)
    (directory file : Option Location) : LoadAnswers tooDeep disk (locate directory file) where
  failed := load_eq_error_iff
  unaskable := load_of_hasNull
  undecodable := load_of_noText
  unreadable := fun hNull _ hRead => load_of_unreadable hNull hRead
  malformed := by
    intro text hText hToml
    rw [load_of_text hText, ofText, hToml]
  document := by
    intro text table hText hToml
    rw [load_of_text hText, ofText, hToml]
  sections := by
    intro table hLoad
    simp [markers, roots, hLoad, markerSection, rootSection]
  noSections := by
    intro fault hLoad
    simp [markers, roots, hLoad]

/-- One byte that starts no character, in the settings file of the working directory. -/
def byteDisk : Disk :=
  { tree := .directory [(fileName, .file [0xFF])] }

/-- A file whose bytes are no text does not load as an empty one. -/
theorem bytes_without_text_do_not_load :
    byteDisk.readBytes (locate none none) = .ok [0xFF] ∧
      ∀ tooDeep, load tooDeep byteDisk (locate none none) =
        .error (.encoding ⟨0, [0xFF], .invalidStart⟩) :=
  ⟨rfl, fun _ => rfl⟩

end Settings

end ApiSurvey
