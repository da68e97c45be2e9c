import ApiSurvey.Proofs.Survey.Concatenation
import ApiSurvey.Proofs.Survey.Placement

/-! What a report lists. Every placed subject has one reference, so a report is
known once it is known how often each subject stands in each of its three
collections. These numbers are read off the declaration alone; the report holds
neither more nor less, and keeps the order of the document. -/
namespace ApiSurvey

/-- The name under which a subject is listed. A block is listed as its type. -/
def Subject.name : Subject → String
  | .function routine => routine.name
  | .dataType type => type.name
  | .implementation block => block.selfType

/-- The enclosing scope followed by the subject's own name. -/
def Placed.reference (placed : Placed) : Reference :=
  ⟨placed.scope ++ [placed.subject.name]⟩

/-- The markers that an attribute lists. One that cannot be read lists none. -/
def Attribute.listed (attr : Attribute) : List QualifiedName :=
  match attr.markers with
  | .ok markers => markers
  | .error _ => []

/-- The markers at all sites of a subject, in order. -/
def Subject.markers (subject : Subject) : List QualifiedName :=
  subject.sites.flatMap fun site => site.attr.listed

def MarkerNames.MarksModel (names : MarkerNames) (marker : QualifiedName) : Prop :=
  marker.segments = ["utoipa", "ToSchema"] ∨ marker = .ofIdent names.model

def MarkerNames.MarksResponse (names : MarkerNames) (marker : QualifiedName) : Prop :=
  marker.segments = ["utoipa", "ToResponse"] ∨ marker = .ofIdent names.response

instance (names : MarkerNames) : DecidablePred names.MarksModel := fun marker =>
  inferInstanceAs (Decidable
    (marker.segments = ["utoipa", "ToSchema"] ∨ marker = .ofIdent names.model))

instance (names : MarkerNames) : DecidablePred names.MarksResponse := fun marker =>
  inferInstanceAs (Decidable
    (marker.segments = ["utoipa", "ToResponse"] ∨ marker = .ofIdent names.response))

/-- How often a subject is an operation: a function is one for every attribute
with the function marker among its segments. -/
def Subject.operationCount (names : MarkerNames) : Subject → Nat
  | .function routine =>
      if Ignored routine.attributes then 0
      else routine.attributes.countP fun attr => names.function ∈ attr.path.segments
  | .dataType _ => 0
  | .implementation _ => 0

/-- How often a subject is a model: a data type is one for every such marker, a
block is one when its capability ends in the model marker. -/
def Subject.modelCount (names : MarkerNames) : Subject → Nat
  | .function _ => 0
  | .dataType type => (Subject.dataType type).markers.countP (names.MarksModel ·)
  | .implementation block => if block.capability.map (·.last) = some names.model then 1 else 0

/-- How often a subject is a response. A block whose capability ends in the model
marker is none, also when the response marker has the same name. -/
def Subject.responseCount (names : MarkerNames) : Subject → Nat
  | .function _ => 0
  | .dataType type => (Subject.dataType type).markers.countP (names.MarksResponse ·)
  | .implementation block =>
      if block.capability.map (·.last) = some names.model then 0
      else if block.capability.map (·.last) = some names.response then 1
      else 0

/-- The references of all subjects in document order, each as often as counted. -/
def listing (count : Subject → Nat) (subjects : List Placed) : List Reference :=
  subjects.flatMap fun placed => List.replicate (count placed.subject) placed.reference

/-- A marker is judged by the two rules on their own. It can follow both when the
two names are equal, and no third rule adds a kind. -/
theorem markerKinds_eq (marker : QualifiedName) (names : MarkerNames) :
    markerKinds marker names =
      (if names.MarksModel marker then [Finding.Kind.model] else []) ++
        (if names.MarksResponse marker then [Finding.Kind.responseModel] else []) := by
  obtain ⟨segments, isGlobal⟩ := marker
  match segments with
  | [] => simp [markerKinds, MarkerNames.MarksModel, MarkerNames.MarksResponse,
      QualifiedName.isIdent, QualifiedName.ofIdent]
  | [ident] =>
      simp [markerKinds, MarkerNames.MarksModel, MarkerNames.MarksResponse,
        QualifiedName.isIdent_iff]
  | [scope, name] =>
      by_cases hScope : scope = "utoipa" <;> by_cases hModel : name = "ToSchema" <;>
        by_cases hResponse : name = "ToResponse" <;>
          simp_all [markerKinds, MarkerNames.MarksModel, MarkerNames.MarksResponse, builtinScope,
            builtinModel, builtinResponse, QualifiedName.isIdent, QualifiedName.ofIdent]
  | _ :: _ :: _ :: _ =>
      simp [markerKinds, MarkerNames.MarksModel, MarkerNames.MarksResponse,
        QualifiedName.isIdent, QualifiedName.ofIdent]

def Subject.kinds (names : MarkerNames) : Subject → List Finding.Kind
  | .function routine =>
      List.replicate ((Subject.function routine).operationCount names) .operation
  | .dataType type => (Subject.dataType type).markers.flatMap (markerKinds · names)
  | .implementation block =>
      if block.capability.map (·.last) = some names.model then [.customModel]
      else if block.capability.map (·.last) = some names.response then [.customResponse]
      else []

/-- A function is found as often as it has the marker. -/
theorem Function.findings_eq_replicate (routine : Function) (scope : Scope)
    (names : MarkerNames) :
    routine.findings scope names =
      List.replicate ((Subject.function routine).operationCount names)
        ⟨.operation, .ofName scope routine.name⟩ := by
  by_cases hIgnored : Ignored routine.attributes
  · have hBool : isIgnored routine.attributes = true := (isIgnored_iff _).mpr hIgnored
    simp [findings, Subject.operationCount, hIgnored, hBool]
  · have hBool : ¬ isIgnored routine.attributes = true := mt (isIgnored_iff _).mp hIgnored
    simp [findings, Subject.operationCount, hIgnored, hBool, List.map_const',
      List.countP_eq_length_filter]

/-- The markers of a subject are those of its sites in order. -/
theorem Subject.markers_eq_flatten (subject : Subject) (lists : List (List QualifiedName))
    (hLists : subject.sites.mapM MarkerSite.read = .ok lists) :
    lists.flatten = subject.markers := by
  rw [Sequence.mapM_eq_ok_iff] at hLists
  rw [markers, List.flatMap_def]
  congr 1
  generalize subject.sites = sites at hLists
  induction hLists with
  | nil => rfl
  | cons hSite _ ih =>
      rw [MarkerSite.read_eq_ok_iff] at hSite
      simp [Attribute.listed, hSite, ih]

/-- A subject whose sites can all be read is found once for each of its kinds. -/
theorem Placed.findings_eq_kinds (names : MarkerNames) (placed : Placed)
    (hRead : ∀ site ∈ placed.subject.sites, ∃ markers, site.read = .ok markers) :
    placed.findings names = .ok ((placed.subject.kinds names).map (⟨·, placed.reference⟩)) := by
  obtain ⟨lists, hLists⟩ := (Sequence.exists_mapM_eq_ok_iff _ _).mpr hRead
  rw [findings_eq_mapM, hLists, Sequence.map_ok]
  congr 1
  obtain ⟨scope, subject⟩ := placed
  cases subject with
  | function routine =>
      simp [Subject.findingsOf, Function.findings_eq_replicate, Subject.kinds, reference,
        Subject.name, Reference.ofName]
  | dataType type =>
      simp [Subject.findingsOf, Subject.markers_eq_flatten _ _ hLists, Subject.kinds, reference,
        Subject.name, Reference.ofName]
  | implementation block =>
      cases hCapability : block.capability with
      | none => simp [Subject.findingsOf, Implementation.findings, Subject.kinds, hCapability]
      | some capability =>
          simp only [Subject.findingsOf, Implementation.findings, Subject.kinds, hCapability,
            Option.map_some, Option.some.injEq, beq_iff_eq]
          split_ifs <;> rfl

def Placed.report (names : MarkerNames) (placed : Placed) : Report where
  operations := List.replicate (placed.subject.operationCount names) placed.reference
  models := List.replicate (placed.subject.modelCount names) placed.reference
  responses := List.replicate (placed.subject.responseCount names) placed.reference

/-- A report of the findings for some markers counts the markers of each kind. -/
theorem ofFindings_markers (names : MarkerNames) (reference : Reference)
    (markers : List QualifiedName) :
    Report.ofFindings ((markers.flatMap (markerKinds · names)).map (⟨·, reference⟩)) =
      { operations := []
        models := List.replicate (markers.countP (names.MarksModel ·)) reference
        responses := List.replicate (markers.countP (names.MarksResponse ·)) reference } := by
  induction markers with
  | nil => rfl
  | cons marker markers ih =>
      rw [List.flatMap_cons, List.map_append, Report.ofFindings_append, ih, markerKinds_eq,
        List.countP_cons, List.countP_cons]
      by_cases hModel : names.MarksModel marker <;>
        by_cases hResponse : names.MarksResponse marker <;>
          simp [hModel, hResponse, List.replicate_succ] <;> rfl

/-- The report of a single subject. -/
theorem Placed.ofFindings_kinds (names : MarkerNames) (placed : Placed) :
    Report.ofFindings ((placed.subject.kinds names).map (⟨·, placed.reference⟩)) =
      placed.report names := by
  obtain ⟨scope, subject⟩ := placed
  cases subject with
  | function routine =>
      simp [Subject.kinds, report, Report.ofFindings, Report.referencesOf, Subject.modelCount,
        Subject.responseCount]
  | dataType type => exact ofFindings_markers names _ _
  | implementation block =>
      simp only [Subject.kinds, report, Subject.operationCount, Subject.modelCount,
        Subject.responseCount]
      split_ifs <;> rfl

/-- By induction on the subjects: the report of all of them lists each as often as it
counts. -/
theorem ofFindings_placed (names : MarkerNames) (subjects : List Placed) :
    Report.ofFindings (subjects.flatMap fun placed =>
      (placed.subject.kinds names).map (⟨·, placed.reference⟩)) =
        { operations := listing (·.operationCount names) subjects
          models := listing (·.modelCount names) subjects
          responses := listing (·.responseCount names) subjects } := by
  induction subjects with
  | nil => rfl
  | cons placed subjects ih =>
      rw [List.flatMap_cons, Report.ofFindings_append, placed.ofFindings_kinds, ih]
      rfl

/-- Where all sites can be read, a survey lists every subject as often as it counts.
-/
theorem survey_eq_ok_of_read (units : List SourceUnit) (names : MarkerNames)
    (hRead : ∀ site ∈ sitesIn units, ∃ markers, site.read = .ok markers) :
    survey units names = .ok
      { operations := listing (·.operationCount names) (placedIn units)
        models := listing (·.modelCount names) (placedIn units)
        responses := listing (·.responseCount names) (placedIn units) } := by
  have hPlaced : ∀ placed ∈ placedIn units, placed.findings names =
      .ok ((placed.subject.kinds names).map (⟨·, placed.reference⟩)) := by
    intro placed hMem
    apply placed.findings_eq_kinds names
    intro site hSite
    exact hRead site (List.mem_flatMap.mpr ⟨placed, hMem, hSite⟩)
  rw [survey_eq_mapM, Sequence.mapM_eq_ok_map hPlaced, Sequence.map_ok, ← List.flatMap_def,
    ofFindings_placed]

/-- The report that lists placed subjects, each as often as its declaration says. -/
def Report.listed (names : MarkerNames) (subjects : List Placed) : Report where
  operations := listing (·.operationCount names) subjects
  models := listing (·.modelCount names) subjects
  responses := listing (·.responseCount names) subjects

/-- A survey first reads all its sites and then lists its subjects. What is read
decides whether there is a report, and the placed subjects decide which. -/
theorem survey_eq_listed (units : List SourceUnit) (names : MarkerNames) :
    survey units names = ((sitesIn units).mapM MarkerSite.read).map
      (fun _ => Report.listed names (placedIn units)) := by
  cases hSites : (sitesIn units).mapM MarkerSite.read with
  | error fault => exact (survey_eq_error_iff_sites units names fault).mpr hSites
  | ok lists =>
      exact survey_eq_ok_of_read units names
        ((Sequence.exists_mapM_eq_ok_iff _ _).mp ⟨lists, hSites⟩)

/-- There is no other report. -/
theorem eq_listed_of_survey_eq_ok {units : List SourceUnit} {names : MarkerNames} {report : Report}
    (hReport : survey units names = .ok report) :
    report = Report.listed names (placedIn units) := by
  rw [survey_eq_listed, Sequence.map_eq_ok_iff] at hReport
  obtain ⟨-, -, hListed⟩ := hReport
  exact hListed.symm

/-- A survey that succeeds has read every site; one that has read every site
lists each subject exactly as often as its declaration says, in the order of the
document and under its full path. No entry is lost, added or moved. -/
theorem survey_eq_ok_iff_listing (units : List SourceUnit) (names : MarkerNames)
    (report : Report) :
    survey units names = .ok report ↔
      (∀ site ∈ sitesIn units, ∃ markers, site.attr.markers = .ok markers) ∧
        report.operations = listing (·.operationCount names) (placedIn units) ∧
        report.models = listing (·.modelCount names) (placedIn units) ∧
        report.responses = listing (·.responseCount names) (placedIn units) := by
  simp only [← MarkerSite.read_eq_ok_iff]
  constructor
  · intro hReport
    have hRead : ∀ site ∈ sitesIn units, ∃ markers, site.read = .ok markers := by
      rw [← Sequence.exists_mapM_eq_ok_iff]
      cases hSites : (sitesIn units).mapM MarkerSite.read with
      | ok lists => exact ⟨lists, rfl⟩
      | error fault =>
          rw [(survey_eq_error_iff_sites units names fault).mpr hSites] at hReport
          cases hReport
    rw [survey_eq_ok_of_read units names hRead] at hReport
    cases hReport
    exact ⟨hRead, rfl, rfl, rfl⟩
  · intro hListing
    obtain ⟨hRead, hOperations, hModels, hResponses⟩ := hListing
    rw [survey_eq_ok_of_read units names hRead, ← hOperations, ← hModels, ← hResponses]

end ApiSurvey
