import ApiSurvey.Survey.Report
import ApiSurvey.Proofs.Sequence

/-! Reports one after the other. Sorting findings into a report respects
concatenation, so a survey of files can be cut anywhere between two files. -/
namespace ApiSurvey

namespace Report

theorem append_def (first second : Report) : first ++ second =
    ⟨first.operations ++ second.operations, first.models ++ second.models,
      first.responses ++ second.responses⟩ := rfl

@[simp] theorem nil_append (report : Report) : ({} : Report) ++ report = report := by
  simp [append_def]

@[simp] theorem append_nil (report : Report) : report ++ ({} : Report) = report := by
  simp [append_def]

/-- Reports may be put together in any grouping. -/
theorem append_assoc (first second third : Report) :
    first ++ second ++ third = first ++ (second ++ third) := by
  simp [append_def]

/-- The report of two batches of findings is the report of the first followed by
the report of the second, in all three collections. -/
theorem ofFindings_append (first second : List Finding) :
    ofFindings (first ++ second) = ofFindings first ++ ofFindings second := by
  simp [ofFindings, append_def, referencesOf]

end Report

/-- Source units that are surveyed in a row give the reports of both parts, the first
fault coming first. -/
theorem survey_append (first second : List SourceUnit) (names : MarkerNames) :
    survey (first ++ second) names =
      (survey first names).bind fun report => (survey second names).map (report ++ ·) := by
  unfold survey
  rw [List.mapM_append]
  cases first.mapM fun unit => unit.findings names with
  | error fault => rfl
  | ok found =>
      cases second.mapM fun unit => unit.findings names with
      | error fault => rfl
      | ok more => simp [Report.ofFindings_append]

/-- A survey gives a report exactly when every file can be walked. -/
theorem exists_survey_eq_ok_iff (units : List SourceUnit) (names : MarkerNames) :
    (∃ report, survey units names = .ok report) ↔
      ∀ unit ∈ units, ∃ findings, unit.findings names = .ok findings := by
  rw [← Sequence.exists_mapM_eq_ok_iff, survey]
  cases units.mapM fun unit => unit.findings names <;> simp

end ApiSurvey
