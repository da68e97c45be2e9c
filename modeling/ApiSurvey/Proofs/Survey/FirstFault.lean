import ApiSurvey.Proofs.Survey.Placement

/-! When a survey fails, and with what. Only a site can fail, and the first site
in document order that does decides the fault. -/
namespace ApiSurvey

/-- The sites of a file do not depend on the scope that it stands for. -/
theorem SourceUnit.sites_placed (unit : SourceUnit) :
    unit.placed.flatMap (·.subject.sites) =
      (Declaration.placedOfAll unit.declarations).flatMap (·.subject.sites) := by
  rw [placed, List.flatMap_map]
  rfl

/-- The sites of a source unit come before those of the others. -/
theorem sitesIn_cons (unit : SourceUnit) (units : List SourceUnit) :
    sitesIn (unit :: units) =
      (Declaration.placedOfAll unit.declarations).flatMap (·.subject.sites) ++ sitesIn units := by
  rw [← unit.sites_placed]
  simp [sitesIn, placedIn]

/-- Where units are placed has no part in their sites. -/
theorem sitesIn_rescoped (units : List SourceUnit) (scopes : Nat → Scope) :
    sitesIn (units.mapIdx fun index unit => { unit with scope := scopes index }) =
      sitesIn units := by
  induction units generalizing scopes with
  | nil => rfl
  | cons unit units ih =>
      rw [List.mapIdx_cons, sitesIn_cons, sitesIn_cons, ih fun index => scopes (index + 1)]

/-- The sites of a subject are the lists of markers on it, if it is a data type that
is surveyed. -/
theorem Subject.mem_sites_iff (subject : Subject) (site : MarkerSite) :
    site ∈ subject.sites ↔ subject = .dataType site.type ∧ site.type.Surveyed ∧
      site.attr ∈ site.type.attributes ∧ site.attr.path = .ofIdent "derive" := by
  obtain ⟨owner, attr⟩ := site
  cases subject with
  | function routine => simp [sites]
  | implementation block => simp [sites]
  | dataType type =>
      by_cases hSurveyed : type.Surveyed
      · simp only [sites, hSurveyed, if_true, List.mem_map, List.mem_filter, decide_eq_true_eq,
          Subject.dataType.injEq, MarkerSite.mk.injEq]
        constructor
        · intro hSite
          obtain ⟨found, ⟨hMem, hPath⟩, rfl, rfl⟩ := hSite
          exact ⟨rfl, hSurveyed, hMem, hPath⟩
        · intro hSite
          obtain ⟨rfl, -, hMem, hPath⟩ := hSite
          exact ⟨attr, ⟨hMem, hPath⟩, rfl, rfl⟩
      · simp only [sites, hSurveyed, if_false, List.not_mem_nil, Subject.dataType.injEq, false_iff]
        intro hSite
        obtain ⟨rfl, hOwner, -⟩ := hSite
        exact hSurveyed hOwner

/-- An attribute lists no markers when it is bare, or when its argument text is
no list of markers. -/
theorem Attribute.exists_markers_error_iff (attr : Attribute) :
    (∃ problem, attr.markers = .error problem) ↔
      attr.arguments = none ∨ ∃ text problem, attr.arguments = some text ∧
        MarkerList.ofChars text.toList = .error problem := by
  unfold markers
  cases attr.arguments with
  | none => simp
  | some text => simp

/-- A survey fails as the first of its sites that cannot be read. -/
theorem survey_eq_error_iff_failsFirst (units : List SourceUnit) (names : MarkerNames)
    (fault : MarkerFault) :
    survey units names = .error fault ↔
      Sequence.FailsFirst MarkerSite.read (sitesIn units) fault := by
  rw [survey_eq_error_iff_sites, Sequence.mapM_eq_error_iff]

/-- Some site cannot be read. Functions, blocks, and data types that have
parameters or are to be left out have no site, whatever their attributes say. -/
theorem exists_unreadable_site_iff (units : List SourceUnit) :
    (∃ site ∈ sitesIn units, ∃ problem, site.attr.markers = .error problem) ↔
      ∃ placed ∈ placedIn units, ∃ type, placed.subject = .dataType type ∧
        type.generics = [] ∧ (∀ attr ∈ type.attributes, attr.path ≠ .ofIdent "utoipa_ignore") ∧
        ∃ attr ∈ type.attributes, attr.path = .ofIdent "derive" ∧
          (attr.arguments = none ∨ ∃ text problem, attr.arguments = some text ∧
            MarkerList.ofChars text.toList = .error problem) := by
  simp only [sitesIn, List.mem_flatMap, Attribute.exists_markers_error_iff, Subject.mem_sites_iff,
    DataType.Surveyed, Ignored, not_exists, not_and]
  constructor
  · intro hUnreadable
    obtain ⟨site, ⟨placed, hPlaced, hSubject, ⟨hGenerics, hIgnored⟩, hAttr, hPath⟩, hArguments⟩ :=
      hUnreadable
    exact ⟨placed, hPlaced, site.type, hSubject, hGenerics, hIgnored, site.attr, hAttr, hPath,
      hArguments⟩
  · intro hUnreadable
    obtain ⟨placed, hPlaced, type, hSubject, hGenerics, hIgnored, attr, hAttr, hPath,
      hArguments⟩ := hUnreadable
    exact ⟨⟨type, attr⟩, ⟨placed, hPlaced, hSubject, ⟨hGenerics, hIgnored⟩, hAttr, hPath⟩,
      hArguments⟩

/-- A survey fails exactly if some site cannot be read. -/
theorem exists_survey_eq_error_iff (units : List SourceUnit) (names : MarkerNames) :
    (∃ fault, survey units names = .error fault) ↔
      ∃ site ∈ sitesIn units, ∃ problem, site.attr.markers = .error problem := by
  constructor
  · intro hFails
    obtain ⟨fault, hFault⟩ := hFails
    obtain ⟨before, site, after, hSites, -, hSite⟩ :=
      (survey_eq_error_iff_failsFirst units names fault).mp hFault
    obtain ⟨problem, hProblem, -⟩ := (site.read_eq_error_iff fault).mp hSite
    exact ⟨site, by simp [hSites], problem, hProblem⟩
  · intro hUnreadable
    obtain ⟨site, hSite, problem, hProblem⟩ := hUnreadable
    cases hRead : (sitesIn units).mapM MarkerSite.read with
    | error fault => exact ⟨fault, (survey_eq_error_iff_sites units names fault).mpr hRead⟩
    | ok lists =>
        obtain ⟨markers, hMarkers⟩ :=
          (Sequence.exists_mapM_eq_ok_iff _ _).mp ⟨lists, hRead⟩ site hSite
        rw [site.read_eq_ok_iff, hProblem] at hMarkers
        cases hMarkers

/-- A survey fails exactly when some data type without parameters, not to be left
out, at any depth, has a marker list that is missing or cannot be read. The fault
is that of the first such attribute in document order, with its text and the name
of its data type. Marker names and the scopes of the files play no part. -/
theorem survey_fails_at_first_unreadable_site (units : List SourceUnit) (names : MarkerNames) :
    ((∃ fault, survey units names = .error fault) ↔
      ∃ placed ∈ placedIn units, ∃ type, placed.subject = .dataType type ∧
        type.generics = [] ∧ (∀ attr ∈ type.attributes, attr.path ≠ .ofIdent "utoipa_ignore") ∧
        ∃ attr ∈ type.attributes, attr.path = .ofIdent "derive" ∧
          (attr.arguments = none ∨ ∃ text problem, attr.arguments = some text ∧
            MarkerList.ofChars text.toList = .error problem)) ∧
    (∀ fault, survey units names = .error fault ↔
      ∃ before site after problem, sitesIn units = before ++ site :: after ∧
        (∀ earlier ∈ before, ∃ markers, earlier.attr.markers = .ok markers) ∧
        site.attr.markers = .error problem ∧
        fault = ⟨site.attr.text, site.type.name, problem⟩) ∧
    (∀ (scopes : Nat → Scope) (otherNames : MarkerNames) (fault : MarkerFault),
      survey (units.mapIdx fun index unit => { unit with scope := scopes index }) otherNames =
          .error fault ↔
        survey units names = .error fault) := by
  refine ⟨?_, ?_, ?_⟩
  · rw [exists_survey_eq_error_iff, exists_unreadable_site_iff]
  · intro fault
    rw [survey_eq_error_iff_failsFirst]
    simp only [Sequence.FailsFirst, MarkerSite.read_eq_ok_iff, MarkerSite.read_eq_error_iff]
    constructor
    · intro hFirst
      obtain ⟨before, site, after, hSites, hBefore, problem, hProblem, hFault⟩ := hFirst
      exact ⟨before, site, after, problem, hSites, hBefore, hProblem, hFault⟩
    · intro hFirst
      obtain ⟨before, site, after, problem, hSites, hBefore, hProblem, hFault⟩ := hFirst
      exact ⟨before, site, after, hSites, hBefore, problem, hProblem, hFault⟩
  · intro scopes otherNames fault
    rw [survey_eq_error_iff_sites, survey_eq_error_iff_sites, sitesIn_rescoped]

end ApiSurvey
