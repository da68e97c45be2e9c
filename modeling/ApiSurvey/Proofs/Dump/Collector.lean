import ApiSurvey.Dump.Collector
import ApiSurvey.Proofs.Json.RoundTrip
import ApiSurvey.Proofs.Survey.Roots

/-! Collecting the dumps of a root. A root that is a file is that one dump; the
files of a root are those of all its dumps, and each dump was read from a value. -/
namespace ApiSurvey

theorem surveyRoot_of_collected {root : Root} {collector : Collector} {units : List SourceUnit}
    (hUnits : root.collected collector = .ofExcept (.ok units)) (names : MarkerNames) :
    surveyRoot root names collector = (survey units names).mapError .markers := by
  have hFailure : (root.collected collector).failure = none := by rw [hUnits]; rfl
  rw [surveyRoot_of_complete names hFailure, hUnits]
  rfl

namespace Dump

/-- Every dump that is loaded comes out of the checker of the schema. -/
theorem exists_ofJson_of_load {disk : Disk} {location : Location} {dump : Dump}
    (hLoad : load disk location = .ok dump) : ∃ json, ofJson json = .ok dump := by
  unfold load at hLoad
  cases hText : disk.readText location with
  | error cause => simp [hText] at hLoad
  | ok content =>
      rw [hText] at hLoad
      have hDump := (Sequence.mapError_eq_ok_iff _ _ _).mp hLoad
      unfold ofText at hDump
      cases hJson : Json.read? limits content with
      | none => simp [hJson, Checked.complain] at hDump
      | some json => exact ⟨json, by simpa [hJson] using hDump⟩

/-- Of a directory those dumps count whose own directory can be listed. -/
theorem locations_directory {disk : Disk} {root : Location}
    {entries : List (String × FileTree)} (hRoot : disk.locate root = .ok (.directory entries)) :
    locations disk root = .ok (((FileTree.directory entries).dumps.filter fun names =>
      isListed root names.dropLast).map root.below) := by
  rw [locations, hRoot]

/-- The source files of a root are those of its dumps, one dump after the other, and
there are any only if all dumps load. -/
theorem collect_eq_ok_iff (disk : Disk) (location : Location) (scopeName : String)
    (units : List SourceUnit) :
    collect disk location scopeName = .ok units ↔
      ∃ places dumps, locations disk location = .ok places ∧ places.mapM (load disk) = .ok dumps ∧
        dumps.flatMap (·.sources scopeName) = units := by
  unfold collect
  cases locations disk location with
  | error failure => simp
  | ok places => cases hDumps : places.mapM (load disk) <;> simp [hDumps]

theorem collected_eq_ok {disk : Disk} {root : Root}
    (hFailure : (root.collected (collector disk)).failure = none) :
    collect disk root.location root.scopeName = .ok (root.collected (collector disk)).units := by
  have hCollected : root.collected (collector disk) =
      .ofExcept (collect disk root.location root.scopeName) := rfl
  rw [hCollected] at hFailure ⊢
  cases hCollect : collect disk root.location root.scopeName with
  | ok units => rfl
  | error failure => simp [hCollect, Collection.ofExcept] at hFailure

/-- A text is read from a file. -/
theorem locate_of_readText {disk : Disk} {place : Location} {content : List Char}
    (hText : disk.readText place = .ok content) :
    ∃ bytes, disk.locate place = .ok (.file bytes) := by
  unfold Disk.readText Disk.readBytes at hText
  cases hLocate : disk.locate place with
  | error failure => simp [hLocate] at hText
  | ok found =>
      cases found with
      | file bytes => exact ⟨bytes, rfl⟩
      | directory entries => simp [hLocate] at hText

/-- A root that is a file is collected from that file alone. -/
theorem collect_of_readText {disk : Disk} {place : Location} {content : List Char} {json : Json}
    {dump : Dump} (hText : disk.readText place = .ok content)
    (hRead : Json.read? limits content = some json) (hDump : ofJson json = .ok dump)
    (scopeName : String) : collect disk place scopeName = .ok (dump.sources scopeName) := by
  obtain ⟨bytes, hFile⟩ := locate_of_readText hText
  have hLoad : load disk place = .ok dump := by
    simp [load, hText, ofText, hRead, hDump]
  rw [collect_eq_ok_iff]
  refine ⟨[place], [dump], ?_, ?_, ?_⟩
  · simp [locations, hFile]
  · simp [hLoad]
  · simp

/-- A root that is a single file is surveyed as the one dump in it. -/
theorem surveyRoot_of_readText {disk : Disk} (root : Root) {content : List Char} {json : Json}
    {dump : Dump} (hText : disk.readText root.location = .ok content)
    (hRead : Json.read? limits content = some json) (hDump : ofJson json = .ok dump)
    (names : MarkerNames) :
    surveyRoot root names (collector disk) =
      (survey (dump.sources root.scopeName) names).mapError .markers := by
  have hCollect := collect_of_readText hText hRead hDump root.scopeName
  have hCollected : root.collected (collector disk) =
      .ofExcept (.ok (dump.sources root.scopeName)) := by
    rw [Root.collected, collector, hCollect]
  exact surveyRoot_of_collected hCollected names

/-- A root that is a file with a dump written in it is surveyed as what the dump holds. -/
theorem surveyRoot_of_written {disk : Disk} (root : Root) {json : Json} {dump : Dump}
    (hText : disk.readText root.location = .ok (Json.write 0 json))
    (hNests : Json.Nests limits.containers json) (hDump : ofJson json = .ok dump)
    (names : MarkerNames) :
    surveyRoot root names (collector disk) =
      (survey (dump.sources root.scopeName) names).mapError .markers :=
  surveyRoot_of_readText root hText hNests.read?_write hDump names

/-- A file in which a value is written, in ASCII. -/
def fileOf (json : Json) : FileTree :=
  .file ((Json.write 0 json).map fun c => c.toNat.toUInt8)

end Dump

end ApiSurvey
