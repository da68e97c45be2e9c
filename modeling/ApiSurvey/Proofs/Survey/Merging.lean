import ApiSurvey.Proofs.MarkerList.Grammar
import ApiSurvey.Proofs.Survey.Placement

/-! Marker lists in one attribute or in two. A list ends outside of all groups and
literals, so that two lists with a comma between them are one list of the same
markers, and a data type is found by the markers and not by their attributes. -/
namespace ApiSurvey

namespace MarkerList

/-- Items that are joined in two parts are joined by one more comma. -/
theorem joined_append {items more : List (List Char)} (hItems : items ≠ []) (hMore : more ≠ []) :
    joined (items ++ more) = joined items ++ ',' :: joined more := by
  induction items with
  | nil => exact (hItems rfl).elim
  | cons item items ih =>
      by_cases hRest : items = []
      · subst hRest
        rw [List.singleton_append, joined_cons item hMore, joined_singleton]
      · rw [List.cons_append, joined_cons item (by simp [hRest]), ih hRest,
          joined_cons item hRest, List.append_assoc, List.cons_append]

/-- A last character that is not blank is still the last one without the blanks
around. -/
theorem getLast?_trim_concat (text : List Char) {last : Char} (hLast : Text.isBlank last = false) :
    (Text.trim (text ++ [last])).getLast? = some last := by
  have hFront : ∃ front, (text ++ [last]).dropWhile Text.isBlank = front ++ [last] := by
    rw [List.dropWhile_append]
    split
    · exact ⟨[], by simp [hLast]⟩
    · exact ⟨_, rfl⟩
  obtain ⟨front, hFront⟩ := hFront
  have hTrim := Text.trimEnd_concat_append front hLast []
  rw [List.append_nil, Text.trimEnd_nil, List.append_nil] at hTrim
  rw [Text.trim, hFront, hTrim]
  simp

/-- A list of markers that is neither blank nor ends in a comma is its items alone. -/
theorem ListText.exists_joined {names : List QualifiedName} {text : List Char}
    (hText : ListText names text) (hSome : ¬ Text.Blanks text)
    (hComma : (Text.trim text).getLast? ≠ some ',') :
    ∃ items, items ≠ [] ∧ List.Forall₂ ItemText names items ∧ text = joined items := by
  cases hText with
  | blank hBlank => exact (hSome hBlank).elim
  | plain hItems hNames => exact ⟨_, hItems, hNames, rfl⟩
  | @trailing _ items after hItems hNames hAfter =>
      refine (hComma ?_).elim
      have hBlank : Text.isBlank ',' = false := rfl
      have hLast := getLast?_trim_concat (joined items) hBlank
      rw [← Text.trim_append_blanks hAfter, List.append_assoc] at hLast
      exact hLast

/-- Behind a comma a list of markers goes on with another one. -/
theorem ListText.append {first second : List QualifiedName} {items : List (List Char)}
    {text : List Char} (hItems : items ≠ []) (hFirst : List.Forall₂ ItemText first items)
    (hSecond : ListText second text) (hSome : ¬ Text.Blanks text) :
    ListText (first ++ second) (joined items ++ ',' :: text) := by
  cases hSecond with
  | blank hBlank => exact (hSome hBlank).elim
  | @plain _ more hMore hNames =>
      rw [← joined_append hItems hMore]
      exact .plain (by simp [hItems]) (List.rel_append hFirst hNames)
  | @trailing _ more after hMore hNames hAfter =>
      rw [← List.cons_append, ← List.append_assoc, ← joined_append hItems hMore]
      exact .trailing (by simp [hItems]) (List.rel_append hFirst hNames) hAfter

/-- Two lists with a comma between them are read as their markers in a row. The first
may not end in a comma itself, since two commas would leave an empty item between
them. -/
theorem ofChars_merged {first second : List Char} {names more : List QualifiedName}
    (hFirst : ofChars first = .ok names) (hSecond : ofChars second = .ok more)
    (hFirstSome : ¬ Text.Blanks first) (hSecondSome : ¬ Text.Blanks second)
    (hComma : (Text.trim first).getLast? ≠ some ',') :
    ofChars (first ++ ',' :: second) = .ok (names ++ more) := by
  obtain ⟨items, hItems, hNames, rfl⟩ :=
    (ListText.of_ofChars hFirst).exists_joined hFirstSome hComma
  exact (ListText.append hItems hNames (.of_ofChars hSecond) hSecondSome).ofChars

end MarkerList

/-- The attribute that lists the markers of a text. -/
def Attribute.listing (text : String) : Attribute :=
  ⟨.ofIdent "derive", some text⟩

/-- The markers that attributes of a named data type list, all together. -/
def listedMarkers (name : String) (attributes : List Attribute) :
    Except MarkerFault (List QualifiedName) :=
  ((attributes.filter Attribute.listsMarkers).mapM fun attr : Attribute =>
    attr.markersOn name).map List.flatten

/-- The markers of a data type are listed by its attributes and depend on its name in
faults only. -/
theorem DataType.markers_eq_listedMarkers (type : DataType) :
    type.markers = listedMarkers type.name type.attributes :=
  rfl

/-- The markers of attributes in two parts, those of the first part first. -/
theorem listedMarkers_append (name : String) (attributes more : List Attribute) :
    listedMarkers name (attributes ++ more) = (listedMarkers name attributes).bind fun found =>
      (listedMarkers name more).map (found ++ ·) := by
  rw [listedMarkers, List.filter_append, ← Sequence.bind_flatten_mapM]
  rfl

theorem listedMarkers_listing (name text : String) :
    listedMarkers name [.listing text] = (Attribute.listing text).markersOn name := by
  have hLists : (Attribute.listing text).listsMarkers = true := rfl
  cases hRead : (Attribute.listing text).markersOn name <;> simp [listedMarkers, hLists, hRead]

/-- Attributes in the middle can be exchanged for others that list the same markers,
as long as none of them asks to leave the data type out. -/
theorem DataType.findings_of_same_markers (type : DataType) {middle other : List Attribute}
    (hMiddle : isIgnored middle = false) (hOther : isIgnored other = false)
    (hMarkers : listedMarkers type.name middle = listedMarkers type.name other)
    (before after : List Attribute) (scope : Scope) (names : MarkerNames) :
    { type with attributes := before ++ (middle ++ after) }.findings scope names =
      { type with attributes := before ++ (other ++ after) }.findings scope names := by
  have hIgnored : isIgnored (before ++ (middle ++ after)) =
      isIgnored (before ++ (other ++ after)) := by
    unfold isIgnored at hMiddle hOther ⊢
    rw [List.any_append, List.any_append, List.any_append, List.any_append, hMiddle, hOther]
  have hSurveyed : { type with attributes := before ++ (middle ++ after) }.isSurveyed =
      { type with attributes := before ++ (other ++ after) }.isSurveyed := by
    rw [isSurveyed, isSurveyed, hIgnored]
  have hListed : { type with attributes := before ++ (middle ++ after) }.markers =
      { type with attributes := before ++ (other ++ after) }.markers := by
    rw [markers_eq_listedMarkers, markers_eq_listedMarkers, listedMarkers_append,
      listedMarkers_append, listedMarkers_append, listedMarkers_append, hMarkers]
  rw [findings, findings, hSurveyed, hListed]

/-- Two lists of markers that are not blank, the first without a comma at its end,
are one list when a comma is put between them, and it lists the markers of the first
before those of the second. A data type that carries both lists in two attributes, one
after the other, has the same findings or the same fault as with the one list, whatever
attributes stand before and behind. -/
theorem findings_of_merged_lists {first second : String} {names more : List QualifiedName}
    (hFirst : (Attribute.listing first).markers = .ok names)
    (hSecond : (Attribute.listing second).markers = .ok more)
    (hFirstSome : ¬ Text.Blanks first.toList) (hSecondSome : ¬ Text.Blanks second.toList)
    (hComma : (Text.trim first.toList).getLast? ≠ some ',') :
    (Attribute.listing (first ++ "," ++ second)).markers = .ok (names ++ more) ∧
      ∀ (type : DataType) (before after : List Attribute) (scope : Scope)
        (markerNames : MarkerNames),
        { type with attributes :=
            before ++ ([Attribute.listing first, Attribute.listing second] ++ after) }.findings
              scope markerNames =
          { type with attributes :=
            before ++ ([Attribute.listing (first ++ "," ++ second)] ++ after) }.findings
              scope markerNames := by
  have hMerged : (Attribute.listing (first ++ "," ++ second)).markers = .ok (names ++ more) := by
    have hRead := MarkerList.ofChars_merged hFirst hSecond hFirstSome hSecondSome hComma
    simpa [Attribute.listing, Attribute.markers] using hRead
  refine ⟨hMerged, fun type before after scope markerNames => ?_⟩
  apply type.findings_of_same_markers rfl rfl
  have hListed {text : String} {found : List QualifiedName}
      (hRead : (Attribute.listing text).markers = .ok found) :
      listedMarkers type.name [Attribute.listing text] = .ok found := by
    rw [listedMarkers_listing, Attribute.markersOn, hRead]
    rfl
  rw [← List.singleton_append, listedMarkers_append, hListed hFirst, hListed hSecond,
    hListed hMerged]
  rfl

theorem findings_of_merged_lists_with_literal :
    (Attribute.listing "Debug, serde(tag = \",\"),utoipa::ToSchema,").markers =
        .ok [⟨["Debug"], false⟩, ⟨["serde"], false⟩, ⟨["utoipa", "ToSchema"], false⟩] ∧
      { name := "Page", attributes := [.listing "Debug, serde(tag = \",\")",
          .listing "utoipa::ToSchema,"] : DataType }.findings ["crate"] ⟨"f", "m", "r"⟩ =
        { name := "Page", attributes :=
          [.listing "Debug, serde(tag = \",\"),utoipa::ToSchema,"] : DataType }.findings
            ["crate"] ⟨"f", "m", "r"⟩ := by
  have hFirst : (Attribute.listing "Debug, serde(tag = \",\")").markers =
      .ok [⟨["Debug"], false⟩, ⟨["serde"], false⟩] := by decide
  have hSecond : (Attribute.listing "utoipa::ToSchema,").markers =
      .ok [⟨["utoipa", "ToSchema"], false⟩] := by decide
  have hMerged := findings_of_merged_lists hFirst hSecond (by decide) (by decide) (by decide)
  exact ⟨hMerged.1, hMerged.2 { name := "Page" } [] [] ["crate"] ⟨"f", "m", "r"⟩⟩

end ApiSurvey
