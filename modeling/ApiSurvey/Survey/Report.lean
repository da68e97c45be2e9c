import ApiSurvey.Survey.Finding

/-! Reports: the references that a survey lists, by what they stand for. -/
namespace ApiSurvey

structure Report where
  operations : List Reference := []
  models : List Reference := []
  responses : List Reference := []
  deriving DecidableEq, Repr

namespace Report

/-- The references of the findings whose kind is listed, in order. -/
def referencesOf (kinds : List Finding.Kind) (findings : List Finding) : List Reference :=
  (findings.filter fun finding => kinds.contains finding.kind).map Finding.reference

/-- Sorts findings into a report. Nothing is dropped and nothing is listed twice that was found
once. -/
def ofFindings (findings : List Finding) : Report where
  operations := referencesOf [.operation] findings
  models := referencesOf [.model, .customModel] findings
  responses := referencesOf [.responseModel, .customResponse] findings

/-- One report after another. -/
def append (first second : Report) : Report where
  operations := first.operations ++ second.operations
  models := first.models ++ second.models
  responses := first.responses ++ second.responses

instance : Append Report := ⟨append⟩

end Report

def survey (units : List SourceUnit) (names : MarkerNames) : Except MarkerFault Report := do
  let findings ← units.mapM (·.findings names)
  return .ofFindings findings.flatten

end ApiSurvey
