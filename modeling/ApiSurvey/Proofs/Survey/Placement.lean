import ApiSurvey.Survey.Report
import ApiSurvey.Proofs.Sequence

/-! The declarations of source files in document order, each with the modules
around it. A survey descends through modules with a growing scope; here the
scope of a declaration is put together from the inside out, and a survey is
shown to be one pass over the resulting list. -/
namespace ApiSurvey

/-- What a survey looks at. Modules only place other declarations, and a module
whose body stands elsewhere is not looked at, nor is any other declaration. -/
inductive Subject where
  | function (routine : Function)
  | dataType (type : DataType)
  | implementation (block : Implementation)

structure Placed where
  scope : Scope
  subject : Subject

/-- A placed subject inside further modules, the outermost one first. -/
def Placed.below (outer : Scope) (placed : Placed) : Placed :=
  { placed with scope := outer ++ placed.scope }

mutual

/-- The subjects of a declaration in document order, with the modules that the
declaration itself puts around them. -/
def Declaration.placed : Declaration → List Placed
  | .module name body => (Declaration.placedOfAll body).map (Placed.below [name])
  | .moduleElsewhere _ => []
  | .function routine => [⟨[], .function routine⟩]
  | .dataType type => [⟨[], .dataType type⟩]
  | .implementation block => [⟨[], .implementation block⟩]
  | .other _ => []

def Declaration.placedOfAll : List Declaration → List Placed
  | [] => []
  | declaration :: rest => declaration.placed ++ Declaration.placedOfAll rest

end

def SourceUnit.placed (unit : SourceUnit) : List Placed :=
  (Declaration.placedOfAll unit.declarations).map (Placed.below unit.scope)

def placedIn (units : List SourceUnit) : List Placed :=
  units.flatMap SourceUnit.placed

def Subject.findings (names : MarkerNames) (scope : Scope) :
    Subject → Except MarkerFault (List Finding)
  | .function routine => .ok (routine.findings scope names)
  | .dataType type => type.findings scope names
  | .implementation block => .ok (block.findings scope names)

def Placed.findings (names : MarkerNames) (placed : Placed) : Except MarkerFault (List Finding) :=
  placed.subject.findings names placed.scope

mutual

theorem Declaration.findings_eq_mapM (names : MarkerNames) (scope : Scope) :
    (declaration : Declaration) → declaration.findings names scope =
      ((declaration.placed.map (Placed.below scope)).mapM (Placed.findings names)).map List.flatten
  | .module name body => by
      rw [Declaration.findings, Declaration.placed, List.map_map,
        Declaration.findingsOfAll_eq_mapM names (scope.enter name) body]
      congr 3
      funext placed
      simp [Placed.below, Scope.enter]
  | .moduleElsewhere _ => by
      simp [Declaration.findings, Declaration.placed]
  | .function routine => by
      simp [Declaration.findings, Declaration.placed, Placed.findings, Placed.below,
        Subject.findings]
  | .dataType type => by
      cases hType : type.findings scope names <;>
        simp [Declaration.findings, Declaration.placed, Placed.findings, Placed.below,
          Subject.findings, hType]
  | .implementation block => by
      simp [Declaration.findings, Declaration.placed, Placed.findings, Placed.below,
        Subject.findings]
  | .other _ => by
      simp [Declaration.findings, Declaration.placed]

theorem Declaration.findingsOfAll_eq_mapM (names : MarkerNames) (scope : Scope) :
    (declarations : List Declaration) → Declaration.findingsOfAll names scope declarations =
      (((Declaration.placedOfAll declarations).map (Placed.below scope)).mapM
        (Placed.findings names)).map List.flatten
  | [] => by
      simp [Declaration.findingsOfAll, Declaration.placedOfAll]
  | declaration :: rest => by
      rw [Declaration.findingsOfAll, Declaration.placedOfAll, List.map_append,
        ← Sequence.bind_flatten_mapM, declaration.findings_eq_mapM names scope,
        Declaration.findingsOfAll_eq_mapM names scope rest]

end

/-- The findings of a source unit are those of the subjects placed in it, in their
order. -/
theorem SourceUnit.findings_eq_mapM (unit : SourceUnit) (names : MarkerNames) :
    unit.findings names = (unit.placed.mapM (Placed.findings names)).map List.flatten :=
  Declaration.findingsOfAll_eq_mapM names unit.scope unit.declarations

/-- So are those of source units in a row. -/
theorem findings_units_eq_mapM (units : List SourceUnit) (names : MarkerNames) :
    (units.mapM fun unit : SourceUnit => unit.findings names).map List.flatten =
      ((placedIn units).mapM (Placed.findings names)).map List.flatten := by
  induction units with
  | nil => rfl
  | cons unit units ih =>
      have hPlaced : placedIn (unit :: units) = unit.placed ++ placedIn units := rfl
      rw [hPlaced, ← Sequence.bind_flatten_mapM, ← ih, ← unit.findings_eq_mapM names,
        List.mapM_cons]
      cases unit.findings names <;> cases units.mapM (fun unit => unit.findings names) <;> simp

/-- A survey is one pass over the placed subjects, whatever the modules that
they come from. -/
theorem survey_eq_mapM (units : List SourceUnit) (names : MarkerNames) :
    survey units names = ((placedIn units).mapM (Placed.findings names)).map
      (fun found => Report.ofFindings found.flatten) := by
  have hFindings := findings_units_eq_mapM units names
  rw [survey]
  revert hFindings
  cases units.mapM (fun unit => unit.findings names) <;>
    cases (placedIn units).mapM (Placed.findings names) <;> simp +contextual

/-- The name that is this one identifier and starts from no outer scope. -/
def QualifiedName.ofIdent (ident : String) : QualifiedName :=
  ⟨[ident], false⟩

theorem QualifiedName.isIdent_iff (name : QualifiedName) (ident : String) :
    name.isIdent ident = true ↔ name = .ofIdent ident := by
  cases name with
  | mk segments isGlobal => cases isGlobal <;> simp [isIdent, ofIdent]

def Ignored (attributes : List Attribute) : Prop :=
  ∃ attr ∈ attributes, attr.path = .ofIdent "utoipa_ignore"

instance (attributes : List Attribute) : Decidable (Ignored attributes) :=
  inferInstanceAs (Decidable (∃ attr ∈ attributes, attr.path = .ofIdent "utoipa_ignore"))

/-- A declaration is ignored if one of its attributes says so. -/
theorem isIgnored_iff (attributes : List Attribute) :
    isIgnored attributes = true ↔ Ignored attributes := by
  simp [isIgnored, Ignored, QualifiedName.isIdent_iff, ignoreName]

/-- A data type whose markers count: it has no parameters of its own and is not
to be left out. -/
def DataType.Surveyed (type : DataType) : Prop :=
  type.generics = [] ∧ ¬ Ignored type.attributes

instance (type : DataType) : Decidable type.Surveyed :=
  inferInstanceAs (Decidable (type.generics = [] ∧ ¬ Ignored type.attributes))

/-- A data type is surveyed if it is neither generic nor ignored. -/
theorem DataType.isSurveyed_iff (type : DataType) : type.isSurveyed = true ↔ type.Surveyed := by
  simp [isSurveyed, Surveyed, ← isIgnored_iff]

/-- An attribute that lists markers, and the data type that carries it. -/
structure MarkerSite where
  type : DataType
  attr : Attribute

/-- The markers listed at a site, or the fault to report for it. -/
def MarkerSite.read (site : MarkerSite) : Except MarkerFault (List QualifiedName) :=
  site.attr.markersOn site.type.name

/-- A site is read if its attribute lists markers. -/
theorem MarkerSite.read_eq_ok_iff (site : MarkerSite) (markers : List QualifiedName) :
    site.read = .ok markers ↔ site.attr.markers = .ok markers :=
  Sequence.mapError_eq_ok_iff _ _ _

/-- A site that cannot be read tells the attribute, the data type and the problem. -/
theorem MarkerSite.read_eq_error_iff (site : MarkerSite) (fault : MarkerFault) :
    site.read = .error fault ↔ ∃ problem, site.attr.markers = .error problem ∧
      fault = ⟨site.attr.text, site.type.name, problem⟩ := by
  rw [read, Attribute.markersOn, Sequence.mapError_eq_error_iff]
  simp only [eq_comm]

/-- The sites of a subject, in the order of its attributes. Only a data type
whose markers count has any. -/
def Subject.sites : Subject → List MarkerSite
  | .function _ => []
  | .dataType type =>
      if type.Surveyed then
        (type.attributes.filter fun attr => attr.path = .ofIdent "derive").map (⟨type, ·⟩)
      else []
  | .implementation _ => []

def sitesIn (units : List SourceUnit) : List MarkerSite :=
  (placedIn units).flatMap (·.subject.sites)

/-- The findings of a subject, once the markers at its sites are known. -/
def Subject.findingsOf (names : MarkerNames) (scope : Scope) :
    Subject → List (List QualifiedName) → List Finding
  | .function routine, _ => routine.findings scope names
  | .dataType type, lists => (lists.flatten.flatMap (markerKinds · names)).map fun kind =>
      ⟨kind, .ofName scope type.name⟩
  | .implementation block, _ => block.findings scope names

/-- The markers of a surveyed data type are those of its sites in a row. -/
theorem DataType.markers_eq_mapM (type : DataType) (hSurveyed : type.Surveyed) :
    type.markers = ((Subject.dataType type).sites.mapM MarkerSite.read).map List.flatten := by
  have hFilter : type.attributes.filter Attribute.listsMarkers =
      type.attributes.filter fun attr => attr.path = .ofIdent "derive" := by
    congr 1
    funext attr
    rw [Bool.eq_iff_iff]
    simp [Attribute.listsMarkers, QualifiedName.isIdent_iff, markerListName]
  simp only [markers, Subject.sites, hSurveyed, if_true, List.mapM_map, hFilter]
  rfl

/-- All that can fail in a subject is the reading of its sites. -/
theorem Placed.findings_eq_mapM (names : MarkerNames) (placed : Placed) :
    placed.findings names = (placed.subject.sites.mapM MarkerSite.read).map
      (placed.subject.findingsOf names placed.scope) := by
  obtain ⟨scope, subject⟩ := placed
  cases subject with
  | function routine => rfl
  | implementation block => rfl
  | dataType type =>
      by_cases hSurveyed : type.Surveyed
      · have hBool : type.isSurveyed = true := type.isSurveyed_iff.mpr hSurveyed
        simp only [Placed.findings, Subject.findings, DataType.findings, hBool,
          type.markers_eq_mapM hSurveyed]
        cases (Subject.dataType type).sites.mapM MarkerSite.read <;> simp [Subject.findingsOf]
      · have hBool : ¬ type.isSurveyed = true := mt type.isSurveyed_iff.mp hSurveyed
        simp [Placed.findings, Subject.findings, DataType.findings, hBool, Subject.sites,
          hSurveyed, Subject.findingsOf]

/-- A survey fails exactly as the reading of its sites in document order does.
Neither the marker names nor any scope has a part in this. -/
theorem survey_eq_error_iff_sites (units : List SourceUnit) (names : MarkerNames)
    (fault : MarkerFault) :
    survey units names = .error fault ↔ (sitesIn units).mapM MarkerSite.read = .error fault := by
  have hSites := Sequence.mapM_mapM_eq_error_iff (fun placed : Placed => placed.subject.sites)
    MarkerSite.read (fun placed => placed.subject.findingsOf names placed.scope)
    (placedIn units) fault
  simp only [← Placed.findings_eq_mapM] at hSites
  rw [survey_eq_mapM, sitesIn, ← hSites]
  cases (placedIn units).mapM (Placed.findings names) <;> simp

end ApiSurvey
