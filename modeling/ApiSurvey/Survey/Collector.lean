import ApiSurvey.Refusal
import ApiSurvey.Survey.Report

/-! Collectors and surveys of roots. A collector hands over the source files of a root one after
the other and may fail on the way; a survey of the root starts only when it has them all. -/
namespace ApiSurvey

inductive Collection.Failure where
  /-- It refuses the root. -/
  | refused (refusal : Refusal)
  /-- The file tree cannot be asked for a location. -/
  | access (failure : FileTree.Failure) (location : Location)
  /-- Something else goes wrong, of which only the words are known. -/
  | broke (words : String)
  deriving DecidableEq, Repr

/-- What a collector hands over: source files, and the failure that ended it if there was one. -/
structure Collection where
  units : List SourceUnit
  failure : Option Collection.Failure := none

/-- A collector of source files, by the place of a root and the name of its scope. -/
abbrev Collector := Location → String → Collection

/-- The collection of source files, all of which are at hand. -/
def Collection.ofExcept : Except Collection.Failure (List SourceUnit) → Collection
  | .ok units => ⟨units, none⟩
  | .error failure => ⟨[], some failure⟩

/-- A place to survey, and the name of its scope. -/
structure Root where
  location : Location
  scopeName : String
  deriving DecidableEq, Repr

/-- The scope of a root that is not given another name. -/
def defaultScopeName : String := "crate"

inductive SurveyFault where
  | collection (refusal : Refusal)
  | markers (fault : MarkerFault)
  deriving DecidableEq, Repr

def SurveyFault.message (wording : Dump.Wording) : SurveyFault → String
  | .collection refusal => refusal.message wording
  | .markers fault => fault.message

/-- A failure to collect a root as a refusal. One that is no refusal yet counts against the root and
gives its own words as the reason. -/
def Collection.Failure.toRefusal (failure : Collection.Failure) (root : Location) : Refusal :=
  match failure with
  | .refused refusal => refusal
  | .access failure location => ⟨root.text, .told (failure.message location)⟩
  | .broke words => ⟨root.text, .told words⟩

/-- All source files of a collection. A failure of any kind is a refusal of the root. -/
def Collection.complete (collection : Collection) (root : Location) :
    Except Refusal (List SourceUnit) :=
  match collection.failure with
  | none => .ok collection.units
  | some failure => .error (failure.toRefusal root)

/-- Surveys one root. A refusal comes before every fault in the files, also in those that were
handed over before it. -/
def surveyRoot (root : Root) (names : MarkerNames) (collector : Collector) :
    Except SurveyFault Report := do
  let collection := collector root.location root.scopeName
  let units ← (collection.complete root.location).mapError .collection
  (survey units names).mapError .markers

/-- Surveys roots in order; the first one that fails ends the survey. -/
def surveyRoots (roots : List Root) (names : MarkerNames) (collector : Collector) :
    Except SurveyFault Report :=
  roots.foldlM (fun report root => (report ++ ·) <$> surveyRoot root names collector) {}

end ApiSurvey
