import ApiSurvey.Proofs.Dump.Naming

/-! Which fields of a dump a survey can see. Every item has the fields of all
kinds, but only those count that its own kind uses, at every depth. Two dumps that
agree on these are surveyed alike, down to the fault. -/
namespace ApiSurvey

/-- Only the paths of its attributes say whether a declaration is to be left out. -/
theorem isIgnored_eq_any_path (attributes : List Attribute) :
    isIgnored attributes = (attributes.map Attribute.path).any (·.isIdent ignoreName) := by
  rw [List.any_map]
  rfl

/-- A function is found by its name and the paths of its attributes. -/
theorem Function.findings_eq_of_paths {routine other : Function} (hName : routine.name = other.name)
    (hPaths : routine.attributes.map Attribute.path = other.attributes.map Attribute.path)
    (scope : Scope) (names : MarkerNames) :
    routine.findings scope names = other.findings scope names := by
  have hFindings : ∀ routine : Function, routine.findings scope names =
      let paths := routine.attributes.map Attribute.path
      if paths.any (·.isIdent ignoreName) then []
      else (paths.filter fun path => path.segments.contains names.function).map fun _ =>
        ⟨.operation, .ofName scope routine.name⟩ := by
    intro routine
    simp [findings, isIgnored_eq_any_path, List.filter_map, Function.comp_def]
  rw [hFindings, hFindings, hName, hPaths]

/-- A data type is found by its name and its marker lists. Of its parameters it
counts whether there are any, and of its other attributes only the path. -/
theorem DataType.findings_eq_of_lists {type other : DataType} (hName : type.name = other.name)
    (hGenerics : type.generics = [] ↔ other.generics = [])
    (hPaths : type.attributes.map Attribute.path = other.attributes.map Attribute.path)
    (hLists : type.attributes.filter Attribute.listsMarkers =
      other.attributes.filter Attribute.listsMarkers) (scope : Scope) (names : MarkerNames) :
    type.findings scope names = other.findings scope names := by
  have hSurveyed : type.isSurveyed = other.isSurveyed := by
    have hEmpty : type.generics.isEmpty = other.generics.isEmpty := by
      rw [Bool.eq_iff_iff, List.isEmpty_iff, List.isEmpty_iff]
      exact hGenerics
    rw [isSurveyed, isSurveyed, hEmpty, isIgnored_eq_any_path, isIgnored_eq_any_path, hPaths]
  have hMarkers : type.markers = other.markers := by
    rw [markers, markers, hLists, hName]
  rw [findings, findings, hSurveyed, hMarkers, hName]

/-- A survey depends on no more than the findings of each source unit. -/
theorem survey_congr {names : MarkerNames} {units others : List SourceUnit}
    (hEach : List.Forall₂ (fun unit other : SourceUnit =>
      unit.findings names = other.findings names) units others) :
    survey units names = survey others names := by
  have hUnits : units.mapM (fun unit => unit.findings names) =
      others.mapM (fun unit => unit.findings names) := by
    induction hEach with
    | nil => rfl
    | cons hFirst _ ih => rw [List.mapM_cons, List.mapM_cons, hFirst, ih]
  rw [survey, survey, hUnits]

namespace Dump

/-- Two notes on a data type that say the same to a survey. Only a list of markers
is read; of every other attribute the path is enough. -/
structure Note.Alike (note other : Note) : Prop where
  path : note.path = other.path
  arguments : QualifiedName.ofText note.path = .ofIdent "derive" →
    note.arguments = other.arguments

/-- Two items that differ at most in fields that their kind does not use, and so at
every depth below them. A field that is not named here is free in both. -/
inductive Item.Alike : Item → Item → Prop where
  | module {item other : Item} {body otherBody : List Item}
      (kind : item.kind = moduleKind) (otherKind : other.kind = moduleKind)
      (name : item.name = other.name)
      (items : item.items = some body) (otherItems : other.items = some otherBody)
      (length : body.length = otherBody.length)
      (inner : ∀ pair ∈ body.zip otherBody, Alike pair.1 pair.2) : Alike item other
  | moduleElsewhere {item other : Item}
      (kind : item.kind = moduleKind) (otherKind : other.kind = moduleKind)
      (name : item.name = other.name)
      (items : item.items = none) (otherItems : other.items = none) : Alike item other
  | function {item other : Item}
      (kind : item.kind = functionKind) (otherKind : other.kind = functionKind)
      (name : item.name = other.name)
      (paths : item.attributes.map Note.path = other.attributes.map Note.path) : Alike item other
  /-- A structure may stand for an enumeration, and parameters for other ones. -/
  | dataType {item other : Item}
      (kind : item.kind ∈ dataTypeKinds) (otherKind : other.kind ∈ dataTypeKinds)
      (name : item.name = other.name)
      (generics : item.generics = [] ↔ other.generics = [])
      (attributes : List.Forall₂ Note.Alike item.attributes other.attributes) : Alike item other
  | implementation {item other : Item}
      (kind : item.kind = implementationKind) (otherKind : other.kind = implementationKind)
      (selfType : item.selfType = other.selfType)
      (capability : item.capability = other.capability) : Alike item other
  | other {item other : Item}
      (kind : item.kind ∉ implementationKind :: namedKinds)
      (otherKind : other.kind ∉ implementationKind :: namedKinds) : Alike item other

/-- Two files with the same scope and items that say the same. The place of a file
whose scope is given is free. -/
structure SourceFile.Alike (source other : SourceFile) : Prop where
  scope : source.scope = other.scope
  file : source.scope = none → source.file = other.file
  items : List.Forall₂ Item.Alike source.items other.items

end Dump

/-- Two dumps of the same shape that differ at most in what no survey can see. -/
def Dump.Alike (dump other : Dump) : Prop :=
  List.Forall₂ Dump.SourceFile.Alike dump.files other.files

namespace Dump

theorem map_path_toAttribute {notes others : List Note}
    (hPaths : notes.map Note.path = others.map Note.path) :
    (notes.map Note.toAttribute).map Attribute.path =
      (others.map Note.toAttribute).map Attribute.path := by
  have hMap : ∀ notes : List Note, (notes.map Note.toAttribute).map Attribute.path =
      (notes.map Note.path).map QualifiedName.ofText := by
    simp [Note.toAttribute]
  rw [hMap, hMap, hPaths]

/-- Notes that are alike have the same paths in the same order. -/
theorem map_path_of_alike {notes others : List Note}
    (hAlike : List.Forall₂ Note.Alike notes others) :
    notes.map Note.path = others.map Note.path := by
  induction hAlike with
  | nil => rfl
  | cons hNote _ ih => rw [List.map_cons, List.map_cons, hNote.path, ih]

/-- Notes that are alike have the same lists of markers: what they may differ in is
in other attributes. -/
theorem markerLists_of_alike {notes others : List Note}
    (hAlike : List.Forall₂ Note.Alike notes others) :
    (notes.map Note.toAttribute).filter Attribute.listsMarkers =
      (others.map Note.toAttribute).filter Attribute.listsMarkers := by
  induction hAlike with
  | nil => rfl
  | @cons note other notes others hNote _ ih =>
      have hSame : other.toAttribute.listsMarkers = note.toAttribute.listsMarkers := by
        simp only [Attribute.listsMarkers, Note.toAttribute, hNote.path]
      rw [List.map_cons, List.map_cons, List.filter_cons, List.filter_cons, hSame, ih]
      split_ifs with hLists
      · -- A list of markers is the one attribute whose arguments have to agree.
        have hArguments := hNote.arguments ((QualifiedName.isIdent_iff _ _).mp hLists)
        rw [Note.toAttribute, Note.toAttribute, hNote.path, hArguments]
      · rfl

/-- Both kinds of data types become the same declaration. -/
theorem Item.declaration_of_dataType {item : Item} (hKind : item.kind ∈ dataTypeKinds) :
    item.declaration = .dataType
      ⟨item.name.getD "", item.attributes.map Note.toAttribute, item.generics⟩ := by
  have hDisjoint : moduleKind ∉ dataTypeKinds ∧ functionKind ∉ dataTypeKinds := by decide
  have hModule : item.kind ≠ moduleKind := fun hEq => hDisjoint.1 (hEq ▸ hKind)
  have hFunction : item.kind ≠ functionKind := fun hEq => hDisjoint.2 (hEq ▸ hKind)
  simp [Item.declaration_eq, hModule, hFunction, hKind]

theorem Item.declaration_of_unknown {item : Item}
    (hKind : item.kind ∉ implementationKind :: namedKinds) :
    item.declaration = .other item.kind := by
  simp only [namedKinds, List.mem_cons, not_or] at hKind
  obtain ⟨hImplementation, hModule, hFunction, hDataType⟩ := hKind
  simp [Item.declaration_eq, hImplementation, hModule, hFunction, hDataType]

/-- The findings of items in a row are those of each item. -/
theorem Item.findingsOfAll_congr {names : MarkerNames} {scope : Scope} {items others : List Item}
    (hEach : List.Forall₂ (fun item other : Item =>
      item.declaration.findings names scope = other.declaration.findings names scope)
      items others) :
    Declaration.findingsOfAll names scope (items.map Item.declaration) =
      Declaration.findingsOfAll names scope (others.map Item.declaration) := by
  induction hEach with
  | nil => rfl
  | cons hFirst _ ih =>
      rw [List.map_cons, List.map_cons, Declaration.findingsOfAll, Declaration.findingsOfAll,
        hFirst, ih]

/-- Alike items are found alike, in every scope. -/
theorem Item.Alike.findings_eq {item other : Item} (hAlike : item.Alike other)
    (names : MarkerNames) (scope : Scope) :
    item.declaration.findings names scope = other.declaration.findings names scope := by
  induction hAlike generalizing scope with
  | @module item other body otherBody hKind hOtherKind hName hItems hOtherItems hLength _ ih =>
      -- The body is entered under the module's name, so the hypothesis must hold in any scope.
      have hBody := Item.findingsOfAll_congr <| List.forall₂_iff_zip.mpr
        ⟨hLength, fun hPair => ih _ hPair (scope.enter (item.name.getD ""))⟩
      simpa [Item.declaration_eq, hKind, hOtherKind, hItems, hOtherItems, Declaration.findings,
        ← hName] using hBody
  | moduleElsewhere hKind hOtherKind hName hItems hOtherItems =>
      simp [Item.declaration_eq, hKind, hOtherKind, hItems, hOtherItems, Declaration.findings]
  | @function item other hKind hOtherKind hName hPaths =>
      have hDistinct : functionKind ≠ moduleKind := by decide
      simp only [Item.declaration_eq, hKind, hOtherKind, beq_iff_eq, hDistinct, if_false, if_true,
        Declaration.findings, Except.ok.injEq]
      exact Function.findings_eq_of_paths (by rw [hName]) (map_path_toAttribute hPaths) scope names
  | dataType hKind hOtherKind hName hGenerics hAttributes =>
      rw [Item.declaration_of_dataType hKind, Item.declaration_of_dataType hOtherKind]
      exact DataType.findings_eq_of_lists (by rw [hName]) hGenerics
        (map_path_toAttribute (map_path_of_alike hAttributes)) (markerLists_of_alike hAttributes)
        scope names
  | implementation hKind hOtherKind hSelfType hCapability =>
      have hDistinct : implementationKind ≠ moduleKind ∧ implementationKind ≠ functionKind ∧
        implementationKind ∉ dataTypeKinds := by decide
      simp [Item.declaration_eq, hKind, hOtherKind, hDistinct, hSelfType, hCapability]
  | other hKind hOtherKind =>
      rw [Item.declaration_of_unknown hKind, Item.declaration_of_unknown hOtherKind]
      rfl

/-- Source files that are alike have the same findings. The name of the file has a
part in this only where no scope is given. -/
theorem SourceFile.Alike.findings_eq {source other : SourceFile} (hAlike : source.Alike other)
    (scopeName : String) (names : MarkerNames) :
    (source.toUnit scopeName).findings names = (other.toUnit scopeName).findings names := by
  have hScope : (source.toUnit scopeName).scope = (other.toUnit scopeName).scope := by
    simp only [SourceFile.toUnit, ← hAlike.scope]
    cases hGiven : source.scope with
    | some scope => simp only [Option.getD_some]
    | none => rw [hAlike.file hGiven]
  unfold SourceUnit.findings
  rw [hScope]
  simp only [SourceFile.toUnit, Item.declarations_eq_map]
  exact Item.findingsOfAll_congr (hAlike.items.imp fun _ _ hItem => hItem.findings_eq names _)

end Dump

/-- Two dumps that differ only in fields that the kinds of their items do not use are
surveyed alike: under all marker names and below every name of the root they give
the same report or the same fault. -/
theorem survey_sees_only_fields_of_kinds {dump other : Dump} (hAlike : dump.Alike other)
    (scopeName : String) (names : MarkerNames) :
    survey (dump.sources scopeName) names = survey (other.sources scopeName) names := by
  apply survey_congr
  unfold Dump.sources
  rw [List.forall₂_map_left_iff, List.forall₂_map_right_iff]
  exact List.Forall₂.imp (fun _ _ hFile => hFile.findings_eq scopeName names) hAlike

namespace Dump

/-- A data type and a function in a module, and an item of no known kind. -/
def plainPages : Json :=
  .object [("files", .array [.object [("file", .string "src/lib.rs"),
    ("namespace", .array [.string "crate"]),
    ("items", .array [
      .object [("kind", .string "mod"), ("name", .string "pages"), ("items", .array [
        .object [("kind", .string "struct"), ("name", .string "Page"),
          ("annotations", .array [
            .object [("path", .string "derive"), ("arguments", .string "ToSchema")],
            .object [("path", .string "serde")]])],
        .object [("kind", .string "fn"), ("name", .string "list"),
          ("annotations", .array [.object [("path", .string "utoipa::path")]])]])],
      .object [("kind", .string "use")]])]])]

/-- The same with other values wherever a kind does not look. -/
def noisyPages : Json :=
  .object [("files", .array [.object [("file", .string "pages.rs"),
    ("namespace", .array [.string "crate"]),
    ("items", .array [
      .object [("kind", .string "mod"), ("name", .string "pages"),
        ("generics", .array [.string "T"]), ("items", .array [
        .object [("kind", .string "enum"), ("name", .string "Page"),
          ("annotations", .array [
            .object [("path", .string "derive"), ("arguments", .string "ToSchema")],
            .object [("path", .string "serde"), ("arguments", .string "(")]]),
          ("items", .array [])],
        .object [("kind", .string "fn"), ("name", .string "list"),
          ("annotations", .array [
            .object [("path", .string "utoipa::path"), ("arguments", .string "get")]]),
          ("trait", .string "ToResponse")]])],
      .object [("kind", .string "const"), ("name", .string "LIMIT")]])]])]

theorem plainPages_noisyPages_surveyed_alike :
    ∃ plain noisy, ofJson plainPages = .ok plain ∧ ofJson noisyPages = .ok noisy ∧
      plain.Alike noisy ∧ plain.files ≠ noisy.files ∧ ∀ scopeName names,
        survey (plain.sources scopeName) names = survey (noisy.sources scopeName) names := by
  have hPage : Item.Alike
      ⟨"struct", some "Page", [⟨"derive", some "ToSchema"⟩, ⟨"serde", none⟩], [], none, none, none⟩
      ⟨"enum", some "Page", [⟨"derive", some "ToSchema"⟩, ⟨"serde", some "("⟩], [], some [], none,
        none⟩ := by
    refine .dataType (by decide) (by decide) rfl Iff.rfl (.cons ⟨rfl, fun _ => rfl⟩ ?_)
    exact .cons ⟨rfl, by decide⟩ .nil
  have hList : Item.Alike
      ⟨"fn", some "list", [⟨"utoipa::path", none⟩], [], none, none, none⟩
      ⟨"fn", some "list", [⟨"utoipa::path", some "get"⟩], [], none, none, some "ToResponse"⟩ :=
    .function rfl rfl rfl rfl
  have hBody : ∀ pair ∈ [(_, _), (_, _)], Item.Alike pair.1 pair.2 :=
    List.forall_mem_cons.mpr ⟨hPage, List.forall_mem_singleton.mpr hList⟩
  have hPages : Item.Alike
      ⟨"mod", some "pages", [], [], some [_, _], none, none⟩
      ⟨"mod", some "pages", [], ["T"], some [_, _], none, none⟩ :=
    .module rfl rfl rfl rfl rfl (Eq.refl 2) hBody
  have hUse : Item.Alike
      ⟨"use", none, [], [], none, none, none⟩
      ⟨"const", some "LIMIT", [], [], none, none, none⟩ :=
    .other (by decide) (by decide)
  have hAlike : Dump.Alike
      ⟨[⟨"src/lib.rs", some ["crate"], [_, _]⟩]⟩ ⟨[⟨"pages.rs", some ["crate"], [_, _]⟩]⟩ :=
    .cons ⟨rfl, nofun, .cons hPages (.cons hUse .nil)⟩ .nil
  refine ⟨_, _, rfl, rfl, hAlike, by simp, ?_⟩
  intro scopeName names
  exact survey_sees_only_fields_of_kinds hAlike scopeName names

end Dump

end ApiSurvey
