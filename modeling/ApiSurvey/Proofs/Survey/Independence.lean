import ApiSurvey.Proofs.Survey.Listing

/-! Which marker name has a part in which collection. Each collection follows its
own marker name, with one exception: a block that ends in the model marker is
never a response, so the model marker can take blocks away from the responses.
It does so only where the two markers have the same name. -/
namespace ApiSurvey

/-- A listing depends on the counts and on nothing else of the names. -/
theorem listing_congr {count other : Subject → Nat}
    (hCount : ∀ subject, count subject = other subject) (subjects : List Placed) :
    listing count subjects = listing other subjects := by
  simp only [listing, hCount]

variable {names other : MarkerNames}

/-- Operations depend on the marker of functions only. -/
theorem Subject.operationCount_congr (hFunction : names.function = other.function)
    (subject : Subject) : subject.operationCount names = subject.operationCount other := by
  cases subject with
  | function routine => simp only [operationCount, hFunction]
  | dataType type => rfl
  | implementation block => rfl

/-- Models depend on the marker of models only. -/
theorem Subject.modelCount_congr (hModel : names.model = other.model) (subject : Subject) :
    subject.modelCount names = subject.modelCount other := by
  cases subject with
  | function routine => rfl
  | dataType type =>
      refine List.countP_congr fun marker _ => ?_
      rw [decide_eq_true_eq, decide_eq_true_eq, MarkerNames.MarksModel, MarkerNames.MarksModel,
        hModel]
  | implementation block => simp only [modelCount, hModel]

/-- A block is a response by the response marker alone, unless that is the model
marker too. -/
theorem Subject.responseCount_block (hDistinct : names.model ≠ names.response)
    (block : Implementation) :
    (Subject.implementation block).responseCount names =
      if block.capability.map (·.last) = some names.response then 1 else 0 := by
  rw [responseCount]
  by_cases hResponse : block.capability.map (·.last) = some names.response
  · have hModel : ¬ block.capability.map (·.last) = some names.model := by
      rw [hResponse, Option.some.injEq]
      exact hDistinct.symm
    rw [if_neg hModel]
  · simp only [hResponse, if_false, ite_self]

/-- Responses depend on the marker of responses only, as long as it is not the one of
models. For a block with a capability of both names the model comes first. -/
theorem Subject.responseCount_congr (hResponse : names.response = other.response)
    (hModel : names.model = other.model ∨
      names.model ≠ names.response ∧ other.model ≠ other.response) (subject : Subject) :
    subject.responseCount names = subject.responseCount other := by
  cases subject with
  | function routine => rfl
  | dataType type =>
      refine List.countP_congr fun marker _ => ?_
      rw [decide_eq_true_eq, decide_eq_true_eq, MarkerNames.MarksResponse,
        MarkerNames.MarksResponse, hResponse]
  | implementation block =>
      -- Only here does the model marker come in. Either both surveys give it the same
      -- blocks, or in neither of them does it reach a block of the response marker.
      obtain hSame | ⟨hNames, hOther⟩ := hModel
      · simp only [responseCount, hSame, hResponse]
      · rw [responseCount_block hNames, responseCount_block hOther, hResponse]

variable (names other)

/-- Two surveys of the same files under different marker names fail alike. If they
succeed, two collections can differ only where their own markers do. The
responses also follow the model marker, but not when both surveys tell it from
the response marker. -/
theorem survey_collections_follow_own_markers (units : List SourceUnit) :
    (∀ fault, survey units names = .error fault ↔ survey units other = .error fault) ∧
    ∀ report otherReport, survey units names = .ok report → survey units other = .ok otherReport →
      (names.function = other.function → report.operations = otherReport.operations) ∧
      (names.model = other.model → report.models = otherReport.models) ∧
      (names.response = other.response →
        (names.model = other.model ∨
          names.model ≠ names.response ∧ other.model ≠ other.response) →
        report.responses = otherReport.responses) := by
  constructor
  · intro fault
    rw [survey_eq_error_iff_sites, survey_eq_error_iff_sites]
  · intro report otherReport hReport hOther
    obtain rfl := eq_listed_of_survey_eq_ok hReport
    obtain rfl := eq_listed_of_survey_eq_ok hOther
    refine ⟨?_, ?_, ?_⟩
    · intro hFunction
      exact listing_congr (Subject.operationCount_congr hFunction) _
    · intro hModel
      exact listing_congr (Subject.modelCount_congr hModel) _
    · intro hResponse hModel
      exact listing_congr (Subject.responseCount_congr hResponse hModel) _

/-- The proviso on the responses is needed. Where one survey tells the two markers
apart and the other does not, a single block is a response in the first only. -/
theorem exists_responses_ne (hResponse : names.response = other.response)
    (hNames : names.model ≠ names.response) (hOther : other.model = other.response) :
    ∃ unit report otherReport, survey [unit] names = .ok report ∧
      survey [unit] other = .ok otherReport ∧ report.responses ≠ otherReport.responses := by
  let block : Implementation := ⟨"Error", some (.ofIdent names.response)⟩
  have hLast : block.capability.map (·.last) = some names.response := rfl
  have hOne : (Subject.implementation block).responseCount names = 1 := by
    rw [Subject.responseCount_block hNames, if_pos hLast]
  have hNone : (Subject.implementation block).responseCount other = 0 := by
    rw [Subject.responseCount, if_pos (by rw [hLast, hOther, hResponse])]
  refine ⟨⟨["crate"], [.implementation block], ""⟩, _, _, survey_eq_listed _ _,
    survey_eq_listed _ _, ?_⟩
  simp [Report.listed, listing, placedIn, SourceUnit.placed, Declaration.placedOfAll,
    Declaration.placed, Placed.below, hOne, hNone]

end ApiSurvey
