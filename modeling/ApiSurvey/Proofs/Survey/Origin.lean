import ApiSurvey.Proofs.Survey.Listing

/-! Where the references of a report come from. Whatever a report lists is the
reference of a subject of some file, below the scope of that file. -/
namespace ApiSurvey

/-- A report lists a reference in one of its three collections. -/
def Report.Lists (report : Report) (reference : Reference) : Prop :=
  reference ∈ report.operations ∨ reference ∈ report.models ∨ reference ∈ report.responses

/-- What a report lists has been found. -/
theorem Report.exists_finding_of_lists {findings : List Finding} {reference : Reference}
    (hLists : (Report.ofFindings findings).Lists reference) :
    ∃ finding ∈ findings, finding.reference = reference := by
  have hKinds : ∀ kinds, reference ∈ Report.referencesOf kinds findings →
      ∃ finding ∈ findings, finding.reference = reference := by
    intro kinds hMem
    obtain ⟨finding, hFinding, hReference⟩ := List.mem_map.mp hMem
    exact ⟨finding, List.mem_of_mem_filter hFinding, hReference⟩
  obtain hMem | hMem | hMem := hLists <;> exact hKinds _ hMem

/-- All findings of a subject are about the subject itself. -/
theorem Placed.reference_of_findings {names : MarkerNames} {placed : Placed}
    {found : List Finding} (hFound : placed.findings names = .ok found) :
    ∀ finding ∈ found, finding.reference = placed.reference := by
  rw [Placed.findings_eq_mapM, Sequence.map_eq_ok_iff] at hFound
  obtain ⟨lists, -, rfl⟩ := hFound
  obtain ⟨scope, subject⟩ := placed
  intro finding hMem
  cases subject with
  | function routine =>
      rw [Subject.findingsOf, Function.findings_eq_replicate] at hMem
      rw [List.eq_of_mem_replicate hMem]
      rfl
  | dataType type =>
      obtain ⟨kind, -, rfl⟩ := List.mem_map.mp hMem
      rfl
  | implementation block =>
      simp only [Subject.findingsOf, Implementation.findings] at hMem
      split at hMem
      · simp at hMem
      · split_ifs at hMem <;> simp_all [Placed.reference, Subject.name, Reference.ofName]

/-- What a survey lists is a subject of one of its source units. -/
theorem exists_placed_of_lists {units : List SourceUnit} {names : MarkerNames} {report : Report}
    (hReport : survey units names = .ok report) {reference : Reference}
    (hLists : report.Lists reference) :
    ∃ unit ∈ units, ∃ placed ∈ unit.placed, placed.reference = reference := by
  rw [survey_eq_mapM, Sequence.map_eq_ok_iff] at hReport
  obtain ⟨found, hFound, rfl⟩ := hReport
  obtain ⟨finding, hFinding, rfl⟩ := Report.exists_finding_of_lists hLists
  obtain ⟨part, hPart, hMem⟩ := List.mem_flatten.mp hFinding
  rw [Sequence.mapM_eq_ok_iff] at hFound
  obtain ⟨placed, hPlaced, hFindings⟩ := Sequence.exists_step_of_mem hFound hPart
  obtain ⟨unit, hUnit, hPlaced⟩ := List.mem_flatMap.mp hPlaced
  exact ⟨unit, hUnit, placed, hPlaced, (Placed.reference_of_findings hFindings _ hMem).symm⟩

theorem Declaration.placedOfAll_eq_flatMap (declarations : List Declaration) :
    Declaration.placedOfAll declarations = declarations.flatMap Declaration.placed := by
  induction declarations with
  | nil => simp [Declaration.placedOfAll]
  | cons declaration rest ih => simp [Declaration.placedOfAll, ih]

end ApiSurvey
