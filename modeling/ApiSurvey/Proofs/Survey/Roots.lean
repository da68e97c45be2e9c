import ApiSurvey.Survey.Collector
import ApiSurvey.Proofs.Survey.Concatenation

/-! Surveys of several roots. Roots are collected and surveyed one by one, and
the result is that of one survey over all their files. A failure is that of the
first root that fails; within a root, collecting comes before surveying. -/
namespace ApiSurvey

/-- What a collector hands over for a root. -/
def Root.collected (root : Root) (collector : Collector) : Collection :=
  collector root.location root.scopeName

/-- How a root fails. Whatever was handed over before a collector failed is not
looked at, so a fault in it cannot hide the failure. -/
inductive RootFails (collector : Collector) (names : MarkerNames) (root : Root) :
    SurveyFault → Prop where
  /-- A refusal is passed on as it is. -/
  | refused (refusal : Refusal)
      (hFailure : (root.collected collector).failure = some (.refused refusal)) :
      RootFails collector names root (.collection refusal)
  /-- The file tree's own words become the reason to refuse the root. -/
  | access (failure : FileTree.Failure) (location : Location)
      (hFailure : (root.collected collector).failure = some (.access failure location)) :
      RootFails collector names root
        (.collection ⟨root.location.text, .told (failure.message location)⟩)
  /-- The words of anything else become the reason to refuse the root. -/
  | broke (words : String)
      (hFailure : (root.collected collector).failure = some (.broke words)) :
      RootFails collector names root (.collection ⟨root.location.text, .told words⟩)
  /-- All files were handed over, and one of them is at fault. -/
  | markers (fault : MarkerFault)
      (hFailure : (root.collected collector).failure = none)
      (hSurvey : survey (root.collected collector).units names = .error fault) :
      RootFails collector names root (.markers fault)

/-- A root that is not collected as a whole is refused, whatever its source units
are. -/
theorem surveyRoot_of_failure {root : Root} {collector : Collector} {failure : Collection.Failure}
    (names : MarkerNames) (hFailure : (root.collected collector).failure = some failure) :
    surveyRoot root names collector = .error (.collection (failure.toRefusal root.location)) := by
  change (((root.collected collector).complete root.location).mapError _).bind _ = _
  simp [Collection.complete, hFailure]

theorem surveyRoot_of_complete {root : Root} {collector : Collector} (names : MarkerNames)
    (hFailure : (root.collected collector).failure = none) :
    surveyRoot root names collector =
      (survey (root.collected collector).units names).mapError .markers := by
  change (((root.collected collector).complete root.location).mapError _).bind _ = _
  simp [Collection.complete, hFailure]

/-- A root has a report exactly if it is collected as a whole and its source units
have one. -/
theorem surveyRoot_eq_ok_iff (root : Root) (names : MarkerNames) (collector : Collector)
    (report : Report) :
    surveyRoot root names collector = .ok report ↔
      (root.collected collector).failure = none ∧
        survey (root.collected collector).units names = .ok report := by
  cases hFailure : (root.collected collector).failure with
  | some failure => simp [surveyRoot_of_failure names hFailure]
  | none =>
      rw [surveyRoot_of_complete names hFailure, Sequence.mapError_eq_ok_iff]
      exact ⟨fun hSurvey => ⟨rfl, hSurvey⟩, fun hBoth => hBoth.2⟩

/-- A root fails for one of two reasons, a failure of its collection coming first. -/
theorem surveyRoot_eq_error_iff (root : Root) (names : MarkerNames) (collector : Collector)
    (fault : SurveyFault) :
    surveyRoot root names collector = .error fault ↔ RootFails collector names root fault := by
  constructor
  · intro hFault
    cases hFailure : (root.collected collector).failure with
    | none =>
        rw [surveyRoot_of_complete names hFailure, Sequence.mapError_eq_error_iff] at hFault
        obtain ⟨found, hSurvey, rfl⟩ := hFault
        exact .markers found hFailure hSurvey
    | some failure =>
        rw [surveyRoot_of_failure names hFailure] at hFault
        obtain rfl := Except.error.inj hFault
        cases failure with
        | refused refusal => exact .refused refusal hFailure
        | access failure location => exact .access failure location hFailure
        | broke words => exact .broke words hFailure
  · intro hFails
    cases hFails with
    | refused refusal hFailure => exact surveyRoot_of_failure names hFailure
    | access failure location hFailure => exact surveyRoot_of_failure names hFailure
    | broke words hFailure => exact surveyRoot_of_failure names hFailure
    | markers found hFailure hSurvey => rw [surveyRoot_of_complete names hFailure, hSurvey]; rfl

/-- Surveying roots adds up their reports from the left. -/
theorem foldlM_surveyRoot (roots : List Root) (names : MarkerNames) (collector : Collector)
    (start : Report) :
    roots.foldlM (fun report root => (report ++ ·) <$> surveyRoot root names collector) start =
      (surveyRoots roots names collector).map (start ++ ·) := by
  unfold surveyRoots
  induction roots generalizing start with
  | nil => simp
  | cons root roots ih =>
      simp only [List.foldlM_cons, Sequence.bind_eq_bind, Sequence.functor_map_eq_map]
      cases surveyRoot root names collector with
      | error fault => rfl
      | ok report =>
          simp only [Sequence.functor_map_eq_map] at ih
          simp only [Sequence.map_ok, Sequence.ok_bind, ih (start ++ report), ih ({} ++ report)]
          cases roots.foldlM
              (fun report root => (surveyRoot root names collector).map (report ++ ·))
              ({} : Report) <;>
            simp [Report.append_assoc]

/-- The first root is surveyed before the others are looked at. -/
theorem surveyRoots_cons (root : Root) (roots : List Root) (names : MarkerNames)
    (collector : Collector) :
    surveyRoots (root :: roots) names collector =
      (surveyRoot root names collector).bind fun report =>
        (surveyRoots roots names collector).map (report ++ ·) := by
  rw [surveyRoots, List.foldlM_cons]
  cases surveyRoot root names collector with
  | error fault => rfl
  | ok report =>
      have hFold := foldlM_surveyRoot roots names collector ({} ++ report)
      simpa using hFold

/-- A survey depends on the collector only through what it collects at the root. -/
theorem surveyRoot_congr {root : Root} {collector other : Collector}
    (hSame : root.collected collector = root.collected other) (names : MarkerNames) :
    surveyRoot root names collector = surveyRoot root names other := by
  change (((root.collected collector).complete root.location).mapError _).bind _ = _
  rw [hSame]
  rfl

/-- A survey of roots asks a collector for these roots and for nothing else. -/
theorem surveyRoots_congr {roots : List Root} {collector other : Collector}
    (hSame : ∀ root ∈ roots, root.collected collector = root.collected other)
    (names : MarkerNames) :
    surveyRoots roots names collector = surveyRoots roots names other := by
  induction roots with
  | nil => rfl
  | cons root roots ih =>
      obtain ⟨hRoot, hRoots⟩ := List.forall_mem_cons.mp hSame
      rw [surveyRoots_cons, surveyRoots_cons, surveyRoot_congr hRoot, ih hRoots]

/-- After a failure the roots that follow are not asked; after a success theirs
is the rest of the report. -/
theorem surveyRoots_append (roots more : List Root) (names : MarkerNames) (collector : Collector) :
    surveyRoots (roots ++ more) names collector =
      (surveyRoots roots names collector).bind fun report =>
        (surveyRoots more names collector).map (report ++ ·) := by
  rw [surveyRoots, List.foldlM_append]
  change (surveyRoots roots names collector).bind _ = _
  congr 1
  funext report
  exact foldlM_surveyRoot more names collector report

/-- Roots fail as the first of them that does. -/
theorem surveyRoots_eq_error_iff (roots : List Root) (names : MarkerNames) (collector : Collector)
    (fault : SurveyFault) :
    surveyRoots roots names collector = .error fault ↔
      Sequence.FailsFirst (surveyRoot · names collector) roots fault := by
  induction roots with
  | nil =>
      have hNil : surveyRoots [] names collector = .ok {} := rfl
      simp [hNil, Sequence.not_failsFirst_nil]
  | cons root roots ih =>
      rw [surveyRoots_cons]
      cases hRoot : surveyRoot root names collector with
      | error other =>
          rw [Sequence.failsFirst_cons_of_error (surveyRoot · names collector) hRoot]
          simp [eq_comm]
      | ok report =>
          rw [Sequence.failsFirst_cons_of_ok (surveyRoot · names collector) hRoot, ← ih]
          cases surveyRoots roots names collector <;> simp

/-- Root by root or all files at once makes no difference to a report. -/
theorem surveyRoots_eq_ok_iff (roots : List Root) (names : MarkerNames) (collector : Collector)
    (report : Report) :
    surveyRoots roots names collector = .ok report ↔
      (∀ root ∈ roots, (root.collected collector).failure = none) ∧
        survey (roots.flatMap fun root => (root.collected collector).units) names = .ok report := by
  induction roots generalizing report with
  | nil =>
      have hRoots : surveyRoots [] names collector = .ok {} := rfl
      have hUnits : survey [] names = .ok {} := rfl
      simp [hRoots, hUnits]
  | cons root roots ih =>
      rw [surveyRoots_cons, List.flatMap_cons, survey_append, List.forall_mem_cons]
      cases hFailure : (root.collected collector).failure with
      | some failure => simp [surveyRoot_of_failure names hFailure]
      | none =>
          rw [surveyRoot_of_complete names hFailure]
          cases survey (root.collected collector).units names with
          | error fault => simp
          | ok first =>
              simp only [Sequence.mapError_ok, Sequence.ok_bind, Sequence.map_eq_ok_iff, ih,
                true_and]
              constructor
              · intro hBoth
                obtain ⟨rest, ⟨hRoots, hRest⟩, hReport⟩ := hBoth
                exact ⟨hRoots, rest, hRest, hReport⟩
              · intro hBoth
                obtain ⟨hRoots, rest, hRest, hReport⟩ := hBoth
                exact ⟨rest, ⟨hRoots, hRest⟩, hReport⟩

/-- A root is surveyed when it is collected without failure and all of its files
can be walked. -/
theorem exists_surveyRoot_eq_ok_iff (root : Root) (names : MarkerNames) (collector : Collector) :
    (∃ report, surveyRoot root names collector = .ok report) ↔
      (root.collected collector).failure = none ∧
        ∀ unit ∈ (root.collected collector).units,
          ∃ findings, unit.findings names = .ok findings := by
  rw [← exists_survey_eq_ok_iff]
  simp only [surveyRoot_eq_ok_iff, exists_and_left]

/-- Roots have a report exactly if each of them is collected as a whole and all its
source units can be read. -/
theorem exists_surveyRoots_eq_ok_iff (roots : List Root) (names : MarkerNames)
    (collector : Collector) :
    (∃ report, surveyRoots roots names collector = .ok report) ↔
      ∀ root ∈ roots, (root.collected collector).failure = none ∧
        ∀ unit ∈ (root.collected collector).units,
          ∃ findings, unit.findings names = .ok findings := by
  simp only [surveyRoots_eq_ok_iff, exists_and_left, exists_survey_eq_ok_iff, List.mem_flatMap]
  constructor
  · intro hBoth root hRoot
    obtain ⟨hFailure, hUnits⟩ := hBoth
    exact ⟨hFailure root hRoot, fun unit hUnit => hUnits unit ⟨root, hRoot, hUnit⟩⟩
  · intro hRoots
    refine ⟨fun root hRoot => (hRoots root hRoot).1, ?_⟩
    intro unit hMem
    obtain ⟨root, hRoot, hUnit⟩ := hMem
    exact (hRoots root hRoot).2 unit hUnit

/-- A survey of roots succeeds exactly when every root is collected and every
file walked, and then it is the survey of all files in root order. Otherwise it
fails as the first failing root does, with a failure to collect before any fault
in the files, and the roots behind that one have no influence. -/
theorem surveyRoots_agrees_with_survey (roots : List Root) (names : MarkerNames)
    (collector : Collector) :
    ((∃ report, surveyRoots roots names collector = .ok report) ↔
      ∀ root ∈ roots, (root.collected collector).failure = none ∧
        ∀ unit ∈ (root.collected collector).units,
          ∃ findings, unit.findings names = .ok findings) ∧
    (∀ report, surveyRoots roots names collector = .ok report ↔
      (∀ root ∈ roots, (root.collected collector).failure = none) ∧
        survey (roots.flatMap fun root => (root.collected collector).units) names = .ok report) ∧
    (∀ fault, surveyRoots roots names collector = .error fault ↔
      ∃ before root after, roots = before ++ root :: after ∧
        (∀ earlier ∈ before, (earlier.collected collector).failure = none ∧
          ∀ unit ∈ (earlier.collected collector).units,
            ∃ findings, unit.findings names = .ok findings) ∧
        RootFails collector names root fault) ∧
    (∀ more, surveyRoots (roots ++ more) names collector =
      match surveyRoots roots names collector with
      | .error fault => .error fault
      | .ok report => (surveyRoots more names collector).map (report ++ ·)) := by
  refine ⟨?_, ?_, ?_, ?_⟩
  · exact exists_surveyRoots_eq_ok_iff roots names collector
  · exact surveyRoots_eq_ok_iff roots names collector
  · intro fault
    rw [surveyRoots_eq_error_iff]
    simp only [Sequence.FailsFirst, exists_surveyRoot_eq_ok_iff, surveyRoot_eq_error_iff]
  · intro more
    rw [surveyRoots_append]
    cases surveyRoots roots names collector <;> rfl

end ApiSurvey
