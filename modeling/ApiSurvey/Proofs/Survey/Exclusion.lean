import ApiSurvey.Proofs.Survey.Listing

/-! Data types that are left out. The declaration of such a type puts it into no
collection. A block that implements a capability for the type lists it all the same:
a block knows its type by name only, and nothing asks how that type is declared. -/
namespace ApiSurvey

/-- A reference is listed if a subject that counts has it. -/
theorem mem_listing_iff (count : Subject → Nat) (subjects : List Placed) (reference : Reference) :
    reference ∈ listing count subjects ↔
      ∃ placed ∈ subjects, count placed.subject ≠ 0 ∧ placed.reference = reference := by
  simp only [listing, List.mem_flatMap, List.mem_replicate]
  constructor
  · rintro ⟨placed, hMem, hCount, hReference⟩
    exact ⟨placed, hMem, hCount, hReference.symm⟩
  · rintro ⟨placed, hMem, hCount, hReference⟩
    exact ⟨placed, hMem, hCount, hReference.symm⟩

/-- A reference tells the scope and the name that it was made of. -/
theorem Placed.reference_eq_ofName_iff (placed : Placed) (scope : Scope) (name : String) :
    placed.reference = .ofName scope name ↔ placed.scope = scope ∧ placed.subject.name = name := by
  rw [reference, Reference.ofName, Reference.mk.injEq]
  constructor
  · intro hSegments
    obtain ⟨hScope, hName⟩ := List.append_inj' hSegments rfl
    exact ⟨hScope, List.singleton_inj.mp hName⟩
  · rintro ⟨rfl, rfl⟩
    rfl

/-- A data type that is generic or ignored has no markers. -/
theorem Subject.markers_of_not_surveyed {type : DataType} (hType : ¬ type.Surveyed) :
    (Subject.dataType type).markers = [] := by
  simp [markers, sites, hType]

/-- So it is no model. -/
theorem Subject.modelCount_of_not_surveyed {type : DataType} (hType : ¬ type.Surveyed)
    (names : MarkerNames) : (Subject.dataType type).modelCount names = 0 := by
  simp [modelCount, markers_of_not_surveyed hType]

/-- Nor is it a response. -/
theorem Subject.responseCount_of_not_surveyed {type : DataType} (hType : ¬ type.Surveyed)
    (names : MarkerNames) : (Subject.dataType type).responseCount names = 0 := by
  simp [responseCount, markers_of_not_surveyed hType]

/-- A block makes its type a model if its capability has the name of models. -/
theorem Subject.modelCount_block_ne_zero_iff (names : MarkerNames) (block : Implementation) :
    (Subject.implementation block).modelCount names ≠ 0 ↔
      block.capability.map (·.last) = some names.model := by
  rw [modelCount]
  split_ifs with hModel
  · exact iff_of_true Nat.one_ne_zero hModel
  · exact iff_of_false (fun hCount => hCount rfl) hModel

/-- A block makes its type a response if its capability has the name of responses and
that is not the one of models. -/
theorem Subject.responseCount_block_ne_zero_iff (names : MarkerNames) (block : Implementation) :
    (Subject.implementation block).responseCount names ≠ 0 ↔
      block.capability.map (·.last) = some names.response ∧
        block.capability.map (·.last) ≠ some names.model := by
  rw [responseCount]
  split_ifs with hModel hResponse
  · exact iff_of_false (fun hCount => hCount rfl) fun hBoth => hBoth.2 hModel
  · exact iff_of_true Nat.one_ne_zero ⟨hResponse, hModel⟩
  · exact iff_of_false (fun hCount => hCount rfl) fun hBoth => hResponse hBoth.1

/-- Where neither functions nor the data types of a name count, the name is listed for
its blocks and for nothing else. -/
theorem ofName_mem_listing_iff_block (count : Subject → Nat) {subjects : List Placed}
    {scope : Scope} {name : String} (hFunctions : ∀ routine, count (.function routine) = 0)
    (hTypes : ∀ type, ⟨scope, .dataType type⟩ ∈ subjects → type.name = name →
      count (.dataType type) = 0) :
    Reference.ofName scope name ∈ listing count subjects ↔
      ∃ block, ⟨scope, .implementation block⟩ ∈ subjects ∧ block.selfType = name ∧
        count (.implementation block) ≠ 0 := by
  simp only [mem_listing_iff, Placed.reference_eq_ofName_iff]
  constructor
  · rintro ⟨⟨_, subject⟩, hMem, hCount, rfl, rfl⟩
    cases subject with
    | function routine => exact (hCount (hFunctions routine)).elim
    | dataType type => exact (hCount (hTypes type hMem rfl)).elim
    | implementation block => exact ⟨block, hMem, rfl, hCount⟩
  · rintro ⟨block, hMem, rfl, hCount⟩
    exact ⟨_, hMem, hCount, rfl, rfl⟩

/-- If every data type of a name that a scope declares is left out, then neither
functions, nor these types, nor modules put the name into the models or the responses.
What does is a block for the name in the same scope, and only its capability counts:
one that ends in the model marker makes a model, and one that ends in the response
marker, and not in the model marker, a response. -/
theorem left_out_type_is_listed_by_blocks_only {units : List SourceUnit} {names : MarkerNames}
    {report : Report} (hReport : survey units names = .ok report) {scope : Scope} {name : String}
    (hLeftOut : ∀ type, ⟨scope, .dataType type⟩ ∈ placedIn units → type.name = name →
      type.generics ≠ [] ∨ Ignored type.attributes) :
    (Reference.ofName scope name ∈ report.models ↔
      ∃ block, ⟨scope, .implementation block⟩ ∈ placedIn units ∧ block.selfType = name ∧
        block.capability.map (·.last) = some names.model) ∧
    (Reference.ofName scope name ∈ report.responses ↔
      ∃ block, ⟨scope, .implementation block⟩ ∈ placedIn units ∧ block.selfType = name ∧
        block.capability.map (·.last) = some names.response ∧
        block.capability.map (·.last) ≠ some names.model) := by
  have hTypes : ∀ type, ⟨scope, .dataType type⟩ ∈ placedIn units → type.name = name →
      ¬ type.Surveyed := by
    intro type hMem hName hSurveyed
    obtain hGenerics | hIgnored := hLeftOut type hMem hName
    · exact hGenerics hSurveyed.1
    · exact hSurveyed.2 hIgnored
  obtain rfl := eq_listed_of_survey_eq_ok hReport
  constructor
  · have hModels := ofName_mem_listing_iff_block (·.modelCount names) (fun _ => rfl)
      fun type hMem hName => Subject.modelCount_of_not_surveyed (hTypes type hMem hName) names
    simp only [Subject.modelCount_block_ne_zero_iff] at hModels
    exact hModels
  · have hResponses := ofName_mem_listing_iff_block (·.responseCount names) (fun _ => rfl)
      fun type hMem hName => Subject.responseCount_of_not_surveyed (hTypes type hMem hName) names
    simp only [Subject.responseCount_block_ne_zero_iff] at hResponses
    exact hResponses

/-- A file with a generic type `Page` that lists both markers, a plain type of the same
name in a module, and a block for the generic one. -/
def pageUnit : SourceUnit where
  scope := ["crate"]
  declarations :=
    [.dataType ⟨"Page", [⟨.ofIdent "derive", some "ToSchema, utoipa::ToResponse"⟩], ["T"]⟩,
      .module "api" [.dataType ⟨"Page", [⟨.ofIdent "derive", some "ToResponse"⟩], []⟩],
      .implementation ⟨"Page", some ⟨["utoipa", "ToSchema"], false⟩⟩]

def pageMarkers : MarkerNames := ⟨"utoipa", "ToSchema", "ToResponse"⟩

theorem survey_pageUnit : survey [pageUnit] pageMarkers =
    .ok ⟨[], [⟨["crate", "Page"]⟩], [⟨["crate", "api", "Page"]⟩]⟩ := by
  rfl

theorem placedIn_pageUnit : placedIn [pageUnit] =
    [⟨["crate"], .dataType ⟨"Page",
        [⟨.ofIdent "derive", some "ToSchema, utoipa::ToResponse"⟩], ["T"]⟩⟩,
      ⟨["crate", "api"], .dataType ⟨"Page", [⟨.ofIdent "derive", some "ToResponse"⟩], []⟩⟩,
      ⟨["crate"], .implementation ⟨"Page", some ⟨["utoipa", "ToSchema"], false⟩⟩⟩] := by
  rfl

theorem pageUnit_left_out (type : DataType)
    (hMem : ⟨["crate"], .dataType type⟩ ∈ placedIn [pageUnit]) :
    type.generics ≠ [] ∨ Ignored type.attributes := by
  rw [placedIn_pageUnit] at hMem
  simp only [List.mem_cons, Placed.mk.injEq, Subject.dataType.injEq, List.cons.injEq,
    List.not_mem_nil] at hMem
  obtain ⟨-, rfl⟩ | ⟨⟨-, hScope⟩, -⟩ | ⟨-, hBlock⟩ | hNone := hMem
  · exact .inl (List.cons_ne_nil _ _)
  · cases hScope
  · cases hBlock
  · cases hNone

/-- The generic type is listed for all that, since its block knows it by its name
only. It is no response, although the list of its markers says so. -/
theorem left_out_page_is_listed_by_its_block : ∃ report,
    survey [pageUnit] pageMarkers = .ok report ∧
    (∀ type, ⟨["crate"], .dataType type⟩ ∈ placedIn [pageUnit] → type.name = "Page" →
      type.generics ≠ [] ∨ Ignored type.attributes) ∧
    Reference.ofName ["crate"] "Page" ∈ report.models ∧
    Reference.ofName ["crate"] "Page" ∉ report.responses := by
  have hLeftOut : ∀ type, ⟨["crate"], .dataType type⟩ ∈ placedIn [pageUnit] →
      type.name = "Page" → type.generics ≠ [] ∨ Ignored type.attributes :=
    fun type hMem _ => pageUnit_left_out type hMem
  obtain ⟨hModels, hResponses⟩ := left_out_type_is_listed_by_blocks_only survey_pageUnit hLeftOut
  refine ⟨_, survey_pageUnit, hLeftOut, hModels.mpr ?_, ?_⟩
  · exact ⟨⟨"Page", some ⟨["utoipa", "ToSchema"], false⟩⟩, by simp [placedIn_pageUnit], rfl, rfl⟩
  · intro hListed
    obtain ⟨block, hMem, -, hLast, -⟩ := hResponses.mp hListed
    obtain rfl : block = ⟨"Page", some ⟨["utoipa", "ToSchema"], false⟩⟩ := by
      simpa [placedIn_pageUnit] using hMem
    exact absurd hLast (by decide)

/-- The declaration alone does not decide. No type `crate::Page` is declared but a generic
one, and the block makes it a model. -/
theorem generic_type_with_block_is_a_model : ∃ report, survey [pageUnit] pageMarkers = .ok report ∧
    (∃ type, ⟨["crate"], .dataType type⟩ ∈ placedIn [pageUnit] ∧ type.name = "Page") ∧
    (∀ type, ⟨["crate"], .dataType type⟩ ∈ placedIn [pageUnit] → type.name = "Page" →
      type.generics ≠ [] ∨ Ignored type.attributes) ∧
    Reference.ofName ["crate"] "Page" ∈ report.models := by
  refine ⟨_, survey_pageUnit, ?_, fun type hMem _ => pageUnit_left_out type hMem, ?_⟩
  · rw [placedIn_pageUnit]
    exact ⟨_, List.mem_cons_self, rfl⟩
  · exact List.mem_cons_self

end ApiSurvey
