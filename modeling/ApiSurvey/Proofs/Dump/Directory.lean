import ApiSurvey.Proofs.Dump.Collector
import ApiSurvey.Proofs.Dump.Listing
import ApiSurvey.Settings.Markers

/-! A root that is a directory. It is surveyed as if each of its dumps were a root,
one after the other. The two ways differ in what they tell of a failure: all dumps
of a root are loaded before the first one is surveyed. -/
namespace ApiSurvey.Dump

/-- What the location of a listed dump leads to. A directory can be listed although
the locations of the files in it are too long. -/
inductive Listed (disk : Disk) (place : Location) : Prop where
  | file (content : List UInt8) (hFile : disk.locate place = .ok (.file content))
  | tooLong (hLong : disk.locate place = .error .nameTooLong)

/-- A root that is there has a listing, and all that it lists is a file or cannot be
asked for. -/
theorem exists_locations {disk : Disk} {found : FileTree} {root : Location}
    (hRoot : disk.locate root = .ok found) (hFormed : found.WellFormed) :
    ∃ places, locations disk root = .ok places ∧ ∀ place ∈ places, Listed disk place := by
  cases found with
  | file content =>
      refine ⟨[root], by rw [locations, hRoot], ?_⟩
      intro place hPlace
      obtain rfl := List.mem_singleton.mp hPlace
      exact .file content hRoot
  | directory entries =>
      refine ⟨_, by rw [locations, hRoot], ?_⟩
      intro place hPlace
      obtain ⟨names, hNames, rfl⟩ := List.mem_map.mp hPlace
      obtain ⟨hEntryNames, content, hFile⟩ :=
        hFormed.get?_of_mem_dumps (List.mem_filter.mp hNames).1
      have hLocate := Disk.locate_below hRoot hEntryNames hFile
      split_ifs at hLocate with hLong
      · exact .tooLong hLocate
      · exact .file content hLocate

section Place

variable {disk : Disk} {place : Location}

/-- A dump that loads is all that its location, taken as a root, has. -/
theorem collect_of_load {dump : Dump} (hListed : Listed disk place)
    (hLoad : load disk place = .ok dump) (scopeName : String) :
    collect disk place scopeName = .ok (dump.sources scopeName) := by
  cases hListed with
  | file content hFile =>
      rw [collect_eq_ok_iff]
      exact ⟨[place], [dump], by rw [locations, hFile], by simp [hLoad], by simp⟩
  | tooLong hLong => simp [load, Disk.readText, Disk.readBytes, hLong] at hLoad

/-- A dump that does not load leaves its location, taken as a root, without source
files. -/
theorem collect_of_load_error {failure : Collection.Failure} (hListed : Listed disk place)
    (hLoad : load disk place = .error failure) (scopeName : String) :
    ∃ other, collect disk place scopeName = .error other := by
  cases hListed with
  | file content hFile => exact ⟨failure, by simp [collect, locations, hFile, hLoad]⟩
  | tooLong hLong => exact ⟨.access .nameTooLong place, by simp [collect, locations, hLong]⟩

/-- A dump that does not load is refused under its own location. -/
theorem refused_of_load_error {failure : Collection.Failure} (hListed : Listed disk place)
    (hLoad : load disk place = .error failure) :
    ∃ reason, failure = .refused ⟨place.text, reason⟩ := by
  unfold load at hLoad
  cases hText : disk.readText place with
  | ok text =>
      rw [hText] at hLoad
      obtain ⟨complaints, -, rfl⟩ := (Sequence.mapError_eq_error_iff _ _ _).mp hLoad
      exact ⟨.invalidDump text complaints, rfl⟩
  | error cause =>
      rw [hText] at hLoad
      obtain rfl : unreadable place cause = failure := Except.error.inj hLoad
      unfold Disk.readText Disk.readBytes at hText
      cases hListed with
      | file content hFile =>
          simp only [hFile, Sequence.mapError_ok, Sequence.bind_eq_bind, Sequence.ok_bind] at hText
          cases hDecode : Text.Utf8.decode content with
          | ok text => simp [hDecode] at hText
          | error fault =>
              rw [hDecode] at hText
              obtain rfl : Unreadable.encoding fault = cause := Except.error.inj hText
              exact ⟨.unreadable (.encoding fault), rfl⟩
      | tooLong hLong =>
          rw [hLong] at hText
          obtain rfl : Unreadable.access .nameTooLong place = cause := Except.error.inj hText
          exact ⟨.unreadable (.access .nameTooLong place), rfl⟩

end Place

/-- The dumps of a root as roots of their own, with the name of its scope. -/
def rootsOf (places : List Location) (scopeName : String) : List Root :=
  places.map (⟨·, scopeName⟩)

section Places

variable {disk : Disk} {places : List Location}
  (hListed : ∀ place ∈ places, Listed disk place)

include hListed

/-- If all dumps load, taking them as roots one by one surveys their source files in
a row. -/
theorem surveyRoots_of_loaded {dumps : List Dump} (hDumps : places.mapM (load disk) = .ok dumps)
    (scopeName : String) (names : MarkerNames) (report : Report) :
    surveyRoots (rootsOf places scopeName) names (collector disk) = .ok report ↔
      survey (dumps.flatMap (·.sources scopeName)) names = .ok report := by
  rw [Sequence.mapM_eq_ok_iff] at hDumps
  -- what the roots hand over one by one is what the dumps hold
  have hCollected : (rootsOf places scopeName).map (·.collected (collector disk)) =
      dumps.map (.ofExcept <| .ok <| ·.sources scopeName) := by
    rw [rootsOf, List.map_map, ← List.forall₂_eq_eq_eq, List.forall₂_map_left_iff,
      List.forall₂_map_right_iff]
    refine Sequence.forall₂_imp_of_mem ?_ hDumps
    intro place hPlace dump hLoad
    rw [Function.comp_apply, Root.collected, collector,
      collect_of_load (hListed place hPlace) hLoad]
  have hComplete : ∀ root ∈ rootsOf places scopeName,
      (root.collected (collector disk)).failure = none := by
    intro root hRoot
    have hMem := List.mem_map_of_mem (f := (·.collected (collector disk))) hRoot
    rw [hCollected] at hMem
    obtain ⟨dump, -, hDump⟩ := List.mem_map.mp hMem
    rw [← hDump]
    rfl
  have hUnits : (rootsOf places scopeName).flatMap (fun root =>
      (root.collected (collector disk)).units) = dumps.flatMap (·.sources scopeName) := by
    have hFlat := congrArg (List.flatMap Collection.units) hCollected
    rwa [List.flatMap_map, List.flatMap_map] at hFlat
  rw [surveyRoots_eq_ok_iff, hUnits]
  exact ⟨fun hBoth => hBoth.2, fun hSurvey => ⟨hComplete, hSurvey⟩⟩

/-- One dump that does not load is enough for there to be no report of the roots. -/
theorem surveyRoots_of_not_loaded {failure : Collection.Failure}
    (hDumps : places.mapM (load disk) = .error failure) (scopeName : String) (names : MarkerNames)
    (report : Report) :
    surveyRoots (rootsOf places scopeName) names (collector disk) ≠ .ok report := by
  obtain ⟨before, place, after, rfl, -, hLoad⟩ := (Sequence.mapM_eq_error_iff _ _ _).mp hDumps
  obtain ⟨other, hCollect⟩ := collect_of_load_error (hListed place (by simp)) hLoad scopeName
  intro hReport
  have hComplete := ((surveyRoots_eq_ok_iff _ _ _ _).mp hReport).1 ⟨place, scopeName⟩
    (by simp [rootsOf])
  simp [Root.collected, collector, hCollect, Collection.ofExcept] at hComplete

end Places

/-- A directory is surveyed as its dumps are, one by one in the order in which they
are listed: both give a report or none does, and the reports are the same. Where a
dump does not load, the survey of the directory fails and names the first such dump,
whatever stands in the others. -/
theorem surveyRoot_eq_dumps_one_by_one {disk : Disk} {found : FileTree} (root : Root)
    (hRoot : disk.locate root.location = .ok found) (hFormed : found.WellFormed)
    (names : MarkerNames) :
    ∃ places, locations disk root.location = .ok places ∧
      (∀ report, surveyRoot root names (collector disk) = .ok report ↔
        surveyRoots (rootsOf places root.scopeName) names (collector disk) = .ok report) ∧
      ((∃ place ∈ places, ∀ dump, load disk place ≠ .ok dump) →
        ∃ before place after reason, places = before ++ place :: after ∧
          (∀ earlier ∈ before, ∃ dump, load disk earlier = .ok dump) ∧
          load disk place = .error (.refused ⟨place.text, reason⟩) ∧
          surveyRoot root names (collector disk) = .error (.collection ⟨place.text, reason⟩)) := by
  obtain ⟨places, hPlaces, hListed⟩ := exists_locations hRoot hFormed
  refine ⟨places, hPlaces, ?_⟩
  cases hDumps : places.mapM (load disk) with
  | ok dumps =>
      have hCollect : collect disk root.location root.scopeName =
          .ok (dumps.flatMap (·.sources root.scopeName)) :=
        (collect_eq_ok_iff _ _ _ _).mpr ⟨places, dumps, hPlaces, hDumps, rfl⟩
      have hCollected : root.collected (collector disk) =
          .ofExcept (.ok (dumps.flatMap (·.sources root.scopeName))) := by
        rw [Root.collected, collector, hCollect]
      constructor
      · intro report
        rw [surveyRoot_of_collected hCollected, Sequence.mapError_eq_ok_iff,
          surveyRoots_of_loaded hListed hDumps]
      · intro hSome
        obtain ⟨place, hPlace, hNone⟩ := hSome
        obtain ⟨dump, hDump⟩ :=
          (Sequence.exists_mapM_eq_ok_iff (load disk) places).mp ⟨dumps, hDumps⟩ place hPlace
        exact (hNone dump hDump).elim
  | error failure =>
      have hFailure : (root.collected (collector disk)).failure = some failure := by
        simp [Root.collected, collector, collect, hPlaces, hDumps, Collection.ofExcept]
      have hSurvey := surveyRoot_of_failure names hFailure
      constructor
      · intro report
        have hNone := surveyRoots_of_not_loaded hListed hDumps root.scopeName names report
        simp [hSurvey, hNone]
      · intro _
        obtain ⟨before, place, after, hSplit, hBefore, hLoad⟩ :=
          (Sequence.mapM_eq_error_iff _ _ _).mp hDumps
        obtain ⟨reason, rfl⟩ := refused_of_load_error (hListed place (by simp [hSplit])) hLoad
        exact ⟨before, place, after, reason, hSplit, hBefore, hLoad, hSurvey⟩

def oneItemDump (file : String) (item : List (String × Json)) : Json :=
  .object [("files", .array [.object [("file", .string file), ("items", .array [.object item])]])]

/-- A dump of a file with one function. -/
def routeDump : Json :=
  oneItemDump "api.rs" [("kind", .string "fn"), ("name", .string "get"),
    ("annotations", .array [.object [("path", .string "utoipa")]])]

/-- A dump of a file with one data type, and the list of its markers. -/
def userDump (markers : String) : Json :=
  oneItemDump "models.rs" [("kind", .string "struct"), ("name", .string "User"),
    ("annotations", .array [.object [("path", .string "derive"), ("arguments", .string markers)]])]

/-- Wherever the dump with one function is read from, its survey reports this
function and nothing else. -/
theorem surveyRoot_routeDump {disk : Disk} {location : Location}
    (hText : disk.readText location = .ok (Json.write 0 routeDump)) :
    surveyRoot ⟨location, "crate"⟩ MarkerNames.default (collector disk) =
      .ok ⟨[⟨["crate", "api", "get"]⟩], [], []⟩ := by
  have hNests : Json.Nests limits.containers routeDump := by
    simp [limits, routeDump, oneItemDump, Json.nests_array_iff, Json.nests_object_iff,
      Json.Nests.string]
  have hDump : ofJson routeDump = .ok
      ⟨[⟨"api.rs", none, [⟨"fn", some "get", [⟨"utoipa", none⟩], [], none, none, none⟩]⟩]⟩ := rfl
  have hSurvey : survey (sources
      ⟨[⟨"api.rs", none, [⟨"fn", some "get", [⟨"utoipa", none⟩], [], none, none, none⟩]⟩]⟩ "crate")
      MarkerNames.default = .ok ⟨[⟨["crate", "api", "get"]⟩], [], []⟩ := by
    decide +kernel
  rw [surveyRoot_of_written ⟨location, "crate"⟩ hText hNests hDump, hSurvey]
  rfl

/-- Wherever the dump with one data type is read from, its survey reports this type
and nothing else. -/
theorem surveyRoot_userDump {disk : Disk} {location : Location}
    (hText : disk.readText location = .ok (Json.write 0 (userDump "ToSchema"))) :
    surveyRoot ⟨location, "crate"⟩ MarkerNames.default (collector disk) =
      .ok ⟨[], [⟨["crate", "models", "User"]⟩], []⟩ := by
  have hNests : Json.Nests limits.containers (userDump "ToSchema") := by
    simp [limits, userDump, oneItemDump, Json.nests_array_iff, Json.nests_object_iff,
      Json.Nests.string]
  have hDump : ofJson (userDump "ToSchema") = .ok ⟨[⟨"models.rs", none,
      [⟨"struct", some "User", [⟨"derive", some "ToSchema"⟩], [], none, none, none⟩]⟩]⟩ := rfl
  have hSurvey : survey (sources ⟨[⟨"models.rs", none,
      [⟨"struct", some "User", [⟨"derive", some "ToSchema"⟩], [], none, none, none⟩]⟩]⟩ "crate")
      MarkerNames.default = .ok ⟨[], [⟨["crate", "models", "User"]⟩], []⟩ := by
    decide +kernel
  rw [surveyRoot_of_written ⟨location, "crate"⟩ hText hNests hDump, hSurvey]
  rfl

/-- A directory with a dump in it and another one further down. -/
def soundEntries : List (String × FileTree) :=
  [("b.json", fileOf routeDump), ("sub", .directory [("a.json", fileOf (userDump "ToSchema"))])]

/-- A disk on which this directory is the working directory. -/
def soundDisk : Disk where
  tree := .directory [("dumps", .directory soundEntries)]
  working := ["dumps"]

/-- A directory with a dump in which a list of markers cannot be read, and behind it a
file that is no dump. -/
def brokenEntries : List (String × FileTree) :=
  [("a.json", fileOf (userDump "A,,B")), ("b.json", .file [])]

/-- A disk with nothing else on it. -/
def brokenDisk : Disk where
  tree := .directory brokenEntries

theorem wellFormed_soundEntries : (FileTree.directory soundEntries).WellFormed := by
  refine .directory _ ?_ (by decide) ?_
  · simp only [soundEntries, List.forall_mem_cons]
    exact ⟨⟨by decide, by decide, by decide⟩, ⟨by decide, by decide, by decide⟩, by simp⟩
  · simp only [soundEntries, List.forall_mem_cons]
    exact ⟨.file _, .singleton ⟨by decide, by decide, by decide⟩ (.file _), by simp⟩

theorem wellFormed_brokenEntries : (FileTree.directory brokenEntries).WellFormed := by
  refine .directory _ ?_ (by decide) ?_
  · simp only [brokenEntries, List.forall_mem_cons]
    exact ⟨⟨by decide, by decide, by decide⟩, ⟨by decide, by decide, by decide⟩, by simp⟩
  · simp only [brokenEntries, List.forall_mem_cons]
    exact ⟨.file _, .file _, by simp⟩

theorem locate_here_soundDisk : soundDisk.locate .here = .ok (.directory soundEntries) :=
  rfl

theorem locate_here_brokenDisk : brokenDisk.locate .here = .ok (.directory brokenEntries) :=
  rfl

theorem locations_soundDisk :
    locations soundDisk .here = .ok [.ofText "b.json", .ofText "sub/a.json"] := by
  have hInner : (FileTree.directory [("a.json", fileOf (userDump "ToSchema"))]).dumps =
      [["a.json"]] := by
    rw [FileTree.dumps_of_sorted (by decide +kernel)]
    decide +kernel
  have hDumps : (FileTree.directory soundEntries).dumps = [["b.json"], ["sub", "a.json"]] := by
    rw [soundEntries, FileTree.dumps_of_sorted (by decide +kernel)]
    simp only [List.flatMap_cons, hInner]
    decide +kernel
  rw [locations_directory locate_here_soundDisk, hDumps]
  decide +kernel

theorem locations_brokenDisk :
    locations brokenDisk .here = .ok [.ofText "a.json", .ofText "b.json"] := by
  have hDumps : (FileTree.directory brokenEntries).dumps = [["a.json"], ["b.json"]] := by
    rw [brokenEntries, FileTree.dumps_of_sorted (by decide +kernel)]
    decide +kernel
  rw [locations_directory locate_here_brokenDisk, hDumps]
  decide +kernel

theorem surveyRoots_soundDisk :
    surveyRoots (rootsOf [.ofText "b.json", .ofText "sub/a.json"] "crate") MarkerNames.default
      (collector soundDisk) =
        .ok ⟨[⟨["crate", "api", "get"]⟩], [⟨["crate", "models", "User"]⟩], []⟩ := by
  have hRoute : soundDisk.readText (.ofText "b.json") = .ok (Json.write 0 routeDump) := by
    decide +kernel
  have hUser : soundDisk.readText (.ofText "sub/a.json") =
      .ok (Json.write 0 (userDump "ToSchema")) := by
    decide +kernel
  rw [rootsOf, List.map_cons, List.map_cons, List.map_nil, surveyRoots_cons, surveyRoots_cons,
    surveyRoot_routeDump hRoute, surveyRoot_userDump hUser]
  rfl

/-- Where both dumps load, the survey of the working directory gives what they hold. Where
one does not, the list of markers comes first in the order of the dumps, and still the
survey names the file behind it. -/
theorem surveyRoot_eq_dumps_one_by_one_when_sound_and_when_broken :
    surveyRoot ⟨.here, "crate"⟩ MarkerNames.default (collector soundDisk) =
        .ok ⟨[⟨["crate", "api", "get"]⟩], [⟨["crate", "models", "User"]⟩], []⟩ ∧
      ∃ reason, surveyRoot ⟨.here, "crate"⟩ MarkerNames.default (collector brokenDisk) =
        .error (.collection ⟨"b.json", reason⟩) := by
  constructor
  · obtain ⟨places, hPlaces, hSame, -⟩ := surveyRoot_eq_dumps_one_by_one
      ⟨.here, "crate"⟩ locate_here_soundDisk wellFormed_soundEntries MarkerNames.default
    obtain rfl := Except.ok.inj (locations_soundDisk.symm.trans hPlaces)
    exact (hSame _).mpr surveyRoots_soundDisk
  · have hFirstLoads : (load brokenDisk (.ofText "a.json")).isOk = true := by
      decide +kernel
    have hSecondFails : (load brokenDisk (.ofText "b.json")).isOk = false := by
      decide +kernel
    obtain ⟨places, hPlaces, -, hFirst⟩ := surveyRoot_eq_dumps_one_by_one
      ⟨.here, "crate"⟩ locate_here_brokenDisk wellFormed_brokenEntries MarkerNames.default
    obtain rfl := Except.ok.inj (locations_brokenDisk.symm.trans hPlaces)
    obtain ⟨before, place, after, reason, hSplit, -, hLoad, hSurvey⟩ := hFirst
      ⟨.ofText "b.json", by simp, fun dump hDump => by
        rw [hDump] at hSecondFails; cases hSecondFails⟩
    have hPlace : place ∈ [Location.ofText "a.json", .ofText "b.json"] := by simp [hSplit]
    obtain rfl | rfl : place = .ofText "a.json" ∨ place = .ofText "b.json" := by simpa using hPlace
    · rw [hLoad] at hFirstLoads
      cases hFirstLoads
    · exact ⟨reason, hSurvey⟩

end ApiSurvey.Dump
