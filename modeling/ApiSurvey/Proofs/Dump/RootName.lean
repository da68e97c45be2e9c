import ApiSurvey.Proofs.Dump.Collector
import ApiSurvey.Proofs.Survey.FirstFault
import ApiSurvey.Proofs.Survey.Listing

/-! The name of a root. It has no part in what is collected or found, and a file
whose scope is given never sees it. In the references of all other files it is the
first segment and nothing else, also when it is a name that means something in the
place of a file. -/
namespace ApiSurvey.Dump

/-- The files of all dumps of a root, before they are given a scope. -/
def loaded (disk : Disk) (location : Location) :
    Except Collection.Failure (List SourceFile) := do
  let places ← locations disk location
  let dumps ← places.mapM (load disk)
  return dumps.flatMap (·.files)

/-- The name of the scope is used once all dumps are loaded, so which source files
there are does not depend on it. -/
theorem collect_eq_loaded (disk : Disk) (location : Location) (scopeName : String) :
    collect disk location scopeName =
      (loaded disk location).map (fun sources => sources.map (·.toUnit scopeName)) := by
  unfold collect loaded
  cases locations disk location with
  | error failure => rfl
  | ok places =>
      cases hDumps : places.mapM (load disk) with
      | error failure => simp [hDumps]
      | ok dumps => simp [hDumps, sources, List.map_flatMap]

/-- What is loaded is surveyed under the name of the scope. -/
theorem surveyRoot_of_loaded {disk : Disk} {location : Location} {sources : List SourceFile}
    (hLoaded : loaded disk location = .ok sources) (scopeName : String) (names : MarkerNames) :
    surveyRoot ⟨location, scopeName⟩ names (collector disk) =
      (survey (sources.map (·.toUnit scopeName)) names).mapError .markers := by
  apply surveyRoot_of_collected
  rw [Root.collected, collector, collect_eq_loaded, hLoaded]
  rfl

/-- What cannot be loaded cannot be loaded under any name. -/
theorem surveyRoot_of_not_loaded {disk : Disk} {location : Location}
    {failure : Collection.Failure} (hLoaded : loaded disk location = .error failure)
    (scopeName : String) (names : MarkerNames) :
    surveyRoot ⟨location, scopeName⟩ names (collector disk) =
      .error (.collection (failure.toRefusal location)) := by
  apply surveyRoot_of_failure
  rw [Root.collected, collector, collect_eq_loaded, hLoaded]
  rfl

/-- The sites of a file are the same below every name of the root. -/
theorem sitesIn_toUnit (sources : List SourceFile) (scopeName other : String) :
    sitesIn (sources.map (·.toUnit scopeName)) = sitesIn (sources.map (·.toUnit other)) := by
  induction sources with
  | nil => rfl
  | cons source sources ih =>
      rw [List.map_cons, List.map_cons, sitesIn_cons, sitesIn_cons, ih]
      rfl

/-- Where a reference comes from: a subject, placed within a file of a dump. -/
structure Origin where
  source : SourceFile
  placed : Placed

/-- The names that lead from the scope of the file to the subject. -/
def Origin.below (origin : Origin) : List String :=
  origin.placed.scope ++ [origin.placed.subject.name]

/-- The subjects of files in document order, each as often as counted. -/
def origins (count : Subject → Nat) (sources : List SourceFile) : List Origin :=
  sources.flatMap fun source =>
    (Declaration.placedOfAll (Item.declarations source.items)).flatMap fun placed =>
      List.replicate (count placed.subject) ⟨source, placed⟩

/-- Two lists of references that come from the same subjects one by one. Where the
scope of the file is given, both are that scope with the subject below it. Where
it is not, the two start with the two names of the root and go on alike. -/
inductive RenamedAlong (first second : String) :
    List Origin → List Reference → List Reference → Prop where
  | nil : RenamedAlong first second [] [] []
  | given {origin : Origin} {origins : List Origin} {references others : List Reference}
      {scope : Scope} (hScope : origin.source.scope = some scope)
      (rest : RenamedAlong first second origins references others) :
      RenamedAlong first second (origin :: origins)
        (⟨scope ++ origin.below⟩ :: references) (⟨scope ++ origin.below⟩ :: others)
  | derived {origin : Origin} {origins : List Origin} {references others : List Reference}
      {modules : Scope} (hScope : origin.source.scope = none)
      (rest : RenamedAlong first second origins references others) :
      RenamedAlong first second (origin :: origins)
        (⟨first :: (modules ++ origin.below)⟩ :: references)
        (⟨second :: (modules ++ origin.below)⟩ :: others)

/-- The reference of a subject below a name of the root. -/
def Origin.reference (scopeName : String) (origin : Origin) : Reference :=
  ⟨(origin.source.toUnit scopeName).scope ++ origin.below⟩

/-- References with the same origins are renamed along them. -/
theorem renamedAlong_references (first second : String) (origins : List Origin) :
    RenamedAlong first second origins (origins.map (Origin.reference first))
      (origins.map (Origin.reference second)) := by
  induction origins with
  | nil => exact .nil
  | cons origin origins ih =>
      rw [List.map_cons, List.map_cons]
      unfold Origin.reference SourceFile.toUnit
      cases hScope : origin.source.scope with
      | some scope => exact .given hScope ih
      | none => exact .derived hScope ih

/-- The references of a listing are those of their origins under the name of the
scope, in the same order. -/
theorem listing_toUnit (count : Subject → Nat) (sources : List SourceFile) (scopeName : String) :
    listing count (placedIn (sources.map (·.toUnit scopeName))) =
      (origins count sources).map (Origin.reference scopeName) := by
  simp [listing, placedIn, origins, SourceUnit.placed, List.flatMap_assoc, List.flatMap_map,
    List.map_flatMap, Placed.below, Placed.reference, Origin.reference, Origin.below,
    SourceFile.toUnit]

/-- Below both names the same sites are read, so both surveys fail or none does. -/
theorem survey_toUnit_cases (sources : List SourceFile) (names : MarkerNames)
    (first second : String) :
    (∃ fault, survey (sources.map (·.toUnit first)) names = .error fault ∧
      survey (sources.map (·.toUnit second)) names = .error fault) ∨
    (survey (sources.map (·.toUnit first)) names =
        .ok (Report.listed names (placedIn (sources.map (·.toUnit first)))) ∧
      survey (sources.map (·.toUnit second)) names =
        .ok (Report.listed names (placedIn (sources.map (·.toUnit second))))) := by
  rw [survey_eq_listed, survey_eq_listed, sitesIn_toUnit sources second first]
  cases (sitesIn (sources.map (·.toUnit first))).mapM MarkerSite.read with
  | error fault => exact .inl ⟨fault, rfl, rfl⟩
  | ok lists => exact .inr ⟨rfl, rfl⟩

/-- Two surveys of the same root under two names for it fail with the same fault, or
both give a report. All three collections of these list the same subjects in the
same order; the references are equal where the scope of the file is given, and
otherwise differ in the first segment alone, which is the name of the root. -/
theorem surveyRoot_differs_in_root_name (disk : Disk) (location : Location)
    (names : MarkerNames) (first second : String) :
    (∃ fault, surveyRoot ⟨location, first⟩ names (collector disk) = .error fault ∧
      surveyRoot ⟨location, second⟩ names (collector disk) = .error fault) ∨
    ∃ sources report other, loaded disk location = .ok sources ∧
      surveyRoot ⟨location, first⟩ names (collector disk) = .ok report ∧
      surveyRoot ⟨location, second⟩ names (collector disk) = .ok other ∧
      RenamedAlong first second (origins (·.operationCount names) sources)
        report.operations other.operations ∧
      RenamedAlong first second (origins (·.modelCount names) sources)
        report.models other.models ∧
      RenamedAlong first second (origins (·.responseCount names) sources)
        report.responses other.responses := by
  cases hLoaded : loaded disk location with
  | error failure =>
      -- The name is not asked for before all files are at hand.
      left
      refine ⟨.collection (failure.toRefusal location), ?_, ?_⟩
      · exact surveyRoot_of_not_loaded hLoaded first names
      · exact surveyRoot_of_not_loaded hLoaded second names
  | ok sources =>
      rw [surveyRoot_of_loaded hLoaded, surveyRoot_of_loaded hLoaded]
      obtain ⟨fault, hFirst, hSecond⟩ | ⟨hFirst, hSecond⟩ :=
        survey_toUnit_cases sources names first second
      · left
        exact ⟨.markers fault, by rw [hFirst]; rfl, by rw [hSecond]; rfl⟩
      · right
        refine ⟨sources, _, _, rfl, by rw [hFirst]; rfl, by rw [hSecond]; rfl, ?_, ?_, ?_⟩ <;>
        · simp only [Report.listed, listing_toUnit]
          exact renamedAlong_references first second _

end ApiSurvey.Dump
