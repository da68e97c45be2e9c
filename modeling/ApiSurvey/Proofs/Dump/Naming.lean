import ApiSurvey.Proofs.Dump.Collector
import ApiSurvey.Proofs.Dump.Schema
import ApiSurvey.Proofs.Survey.Origin

/-! Names in accepted dumps. The schema asks for names by the kind of an item,
and the declaration of an item takes them by its kind; that the two agree on the
kinds is what gives every declaration of an accepted dump its name. -/
namespace ApiSurvey

/-- A declaration with a name that is not empty, and so at every depth below it.
Implementation blocks have a type in place of a name. -/
inductive Declaration.Named : Declaration → Prop where
  | module {name : String} {body : List Declaration} (own : name ≠ "")
      (inner : ∀ declaration ∈ body, Named declaration) : Named (.module name body)
  | moduleElsewhere {name : String} (own : name ≠ "") : Named (.moduleElsewhere name)
  | function {routine : Function} (own : routine.name ≠ "") : Named (.function routine)
  | dataType {type : DataType} (own : type.name ≠ "") : Named (.dataType type)
  | implementation {block : Implementation} (own : block.selfType ≠ "") :
      Named (.implementation block)
  | other (kind : String) : Named (.other kind)

/-- A source file that stands for some scope and whose declarations have names. -/
def SourceUnit.Named (unit : SourceUnit) : Prop :=
  unit.scope ≠ [] ∧ ∀ declaration ∈ unit.declarations, declaration.Named

namespace Dump

/-- An item with what its kind asks for, and so at every depth below it. -/
inductive Item.Named : Item → Prop where
  | intro {item : Item}
      (name : item.kind ∈ namedKinds → ∃ name, item.name = some name ∧ name ≠ "")
      (selfType : item.kind = implementationKind →
        ∃ selfType, item.selfType = some selfType ∧ selfType ≠ "")
      (inner : ∀ items, item.items = some items → ∀ child ∈ items, Named child) : Named item

/-- The rules let an item pass unchanged or not at all, and what they ask for depends
on its kind alone. -/
theorem itemRules_eq_ok_iff (item result : Item) :
    itemRules item = .ok result ↔ item = result ∧
      (item.kind ∈ namedKinds → ∃ name, item.name = some name ∧ name ≠ "") ∧
      (item.kind = implementationKind →
        ∃ selfType, item.selfType = some selfType ∧ selfType ≠ "") := by
  have hName := isEmpty_getD_iff item.name
  have hSelfType := isEmpty_getD_iff item.selfType
  have hDistinct : implementationKind ∉ namedKinds := by decide
  rw [itemRules]
  by_cases hNamed : item.kind ∈ namedKinds
  · have hOther : item.kind ≠ implementationKind := fun hEq => hDistinct (hEq ▸ hNamed)
    by_cases hEmpty : (item.name.getD "").isEmpty = true
    · simp [hNamed, hEmpty, hName.mp hEmpty, Checked.complain]
    · simp [hNamed, hOther, hEmpty, not_not.mp (mt hName.mpr hEmpty)]
  · by_cases hImplementation : item.kind = implementationKind
    · by_cases hEmpty : (item.selfType.getD "").isEmpty = true
      · simp [hImplementation, hDistinct, hEmpty, hSelfType.mp hEmpty, Checked.complain]
      · simp [hImplementation, hDistinct, hEmpty, not_not.mp (mt hSelfType.mpr hEmpty)]
    · simp [hNamed, hImplementation]

/-- An item that was accepted was an object whose fields are as they should be, and
the rules let it pass. -/
theorem item_eq_ok_object {json : Json} {result : Item} (hItem : item json = .ok result) :
    ∃ members, json = .object members ∧
      itemFields members (optional members "items" none (nullable (list item))) = .ok result ∧
      itemRules result = .ok result := by
  cases json with
  | object members =>
      rw [item_object] at hItem
      cases hFields : itemFields members (optional members "items" none (nullable (list item))) with
      | error complaints => simp [hFields] at hItem
      | ok found =>
          rw [hFields, Sequence.ok_bind] at hItem
          obtain ⟨rfl, -⟩ := (itemRules_eq_ok_iff _ _).mp hItem
          exact ⟨members, rfl, hFields, hItem⟩
  | _ => simp [item, Checked.complain] at hItem

/-- By induction on the value: an accepted item has what its kind asks for, and so
have all items inside it. -/
theorem item_named {json : Json} {result : Item} (hItem : item json = .ok result) :
    result.Named := by
  induction json using Json.items_induction generalizing result with
  | step json ih =>
      obtain ⟨members, rfl, hFields, hRules⟩ := item_eq_ok_object hItem
      obtain ⟨-, hName, hSelfType⟩ := (itemRules_eq_ok_iff _ _).mp hRules
      obtain ⟨-, -, -, -, hItems, -, -⟩ := (itemFields_eq_ok_iff _ _).mp hFields
      refine .intro hName hSelfType ?_
      intro items hSome child hChild
      simp only [hSome, optional_eq_ok_iff, nullable_eq_ok_iff, list_eq_ok_iff, reduceCtorEq,
        and_false, false_or, Option.some.injEq] at hItems
      obtain ⟨_, hMember, -, _, ⟨values, rfl, hEach⟩, rfl⟩ := hItems
      obtain ⟨value, hValue, hRead⟩ := Sequence.exists_step_of_mem hEach hChild
      exact ih members "items" values rfl hMember value hValue hRead

theorem Item.declarations_eq_map (items : List Item) :
    Item.declarations items = items.map Item.declaration := by
  induction items with
  | nil => simp [Item.declarations]
  | cons item items ih => simp [Item.declarations, ih]

/-- Which declaration an item becomes, with the items inside a module in a row. -/
theorem Item.declaration_eq (item : Item) :
    item.declaration =
      if item.kind == moduleKind then
        match item.items with
        | none => .moduleElsewhere (item.name.getD "")
        | some items => .module (item.name.getD "") (items.map Item.declaration)
      else if item.kind == functionKind then
        .function ⟨item.name.getD "", item.attributes.map Note.toAttribute⟩
      else if dataTypeKinds.contains item.kind then
        .dataType ⟨item.name.getD "", item.attributes.map Note.toAttribute, item.generics⟩
      else if item.kind == implementationKind then
        .implementation ⟨item.selfType.getD "", capabilityOf item.capability⟩
      else .other item.kind := by
  obtain ⟨kind, name, attributes, generics, items, selfType, capability⟩ := item
  cases items <;> simp only [← Item.declarations_eq_map] <;> rw [Item.declaration.eq_def]

/-- Wherever the declaration of an item takes a name, the item has one. -/
theorem Item.Named.declaration {item : Item} (hNamed : item.Named) : item.declaration.Named := by
  induction hNamed with
  | @intro item hName hSelfType _ ih =>
      have hOwn : item.kind ∈ namedKinds → item.name.getD "" ≠ "" := by
        intro hKind
        obtain ⟨name, hSome, hName⟩ := hName hKind
        rwa [hSome, Option.getD_some]
      rw [Item.declaration_eq]
      split_ifs with hModule hFunction hDataType hImplementation
      · have hOwn := hOwn (by simp [namedKinds, eq_of_beq hModule])
        cases hItems : item.items with
        | none => exact .moduleElsewhere hOwn
        | some items =>
            refine .module hOwn ?_
            intro declaration hMem
            obtain ⟨child, hChild, rfl⟩ := List.mem_map.mp hMem
            exact ih items hItems child hChild
      · exact .function (hOwn (by simp [namedKinds, eq_of_beq hFunction]))
      · exact .dataType (hOwn (by simp_all [namedKinds]))
      · obtain ⟨selfType, hSome, hSelfType⟩ := hSelfType (eq_of_beq hImplementation)
        refine .implementation ?_
        rwa [hSome, Option.getD_some]
      · exact .other item.kind

/-- A source file that was accepted was an object whose fields are as they should be,
and its scope is not empty. -/
theorem sourceFile_eq_ok_object {json : Json} {source : SourceFile}
    (hSource : sourceFile json = .ok source) :
    ∃ members, json = .object members ∧ sourceFields members = .ok source ∧
      source.scope ≠ some [] := by
  cases json with
  | object members =>
      rw [sourceFile_object] at hSource
      cases hFields : sourceFields members with
      | error complaints => simp [hFields] at hSource
      | ok found =>
          rw [hFields, Sequence.ok_bind, sourceFileRules] at hSource
          split_ifs at hSource with hEmpty
          · cases hSource
          · cases hSource
            exact ⟨members, rfl, hFields, by simpa using hEmpty⟩
  | _ => simp [sourceFile, Checked.complain] at hSource

/-- A scope that is made up from the name of a file is never empty, and one that is
given was checked. -/
theorem SourceFile.toUnit_scope_ne_nil {source : SourceFile} (hScope : source.scope ≠ some [])
    (scopeName : String) : (source.toUnit scopeName).scope ≠ [] := by
  unfold SourceFile.toUnit
  cases hSome : source.scope with
  | none => simp [FileScope.ofFile]
  | some segments =>
      rw [hSome, ne_eq, Option.some.injEq] at hScope
      simpa using hScope

theorem sourceFile_items_named {json : Json} {source : SourceFile}
    (hSource : sourceFile json = .ok source) : ∀ item ∈ source.items, item.Named := by
  intro item hItem
  obtain ⟨members, rfl, hFields, -⟩ := sourceFile_eq_ok_object hSource
  obtain ⟨-, -, hItems⟩ := (sourceFields_eq_ok_iff source).mp hFields
  simp only [optional_eq_ok_iff, list_eq_ok_iff] at hItems
  obtain ⟨-, hNone⟩ | ⟨_, -, values, rfl, hEach⟩ := hItems
  · simp [← hNone] at hItem
  · obtain ⟨value, -, hValue⟩ := Sequence.exists_step_of_mem hEach hItem
    exact item_named hValue

theorem sourceFile_named {json : Json} {source : SourceFile}
    (hSource : sourceFile json = .ok source) (scopeName : String) :
    (source.toUnit scopeName).Named := by
  obtain ⟨members, -, -, hScope⟩ := sourceFile_eq_ok_object hSource
  refine ⟨SourceFile.toUnit_scope_ne_nil hScope scopeName, ?_⟩
  intro declaration hMem
  rw [SourceFile.toUnit, Item.declarations_eq_map] at hMem
  obtain ⟨item, hItem, rfl⟩ := List.mem_map.mp hMem
  exact (sourceFile_items_named hSource item hItem).declaration

theorem exists_sourceFile_of_mem_files {json : Json} {dump : Dump}
    (hDump : ofJson json = .ok dump) {source : SourceFile} (hSource : source ∈ dump.files) :
    ∃ value, sourceFile value = .ok source := by
  cases json with
  | object members =>
      obtain ⟨files, hFiles, rfl⟩ := (Sequence.map_eq_ok_iff _ _ _).mp hDump
      simp only [required_eq_ok_iff, list_eq_ok_iff] at hFiles
      obtain ⟨_, -, values, rfl, hEach⟩ := hFiles
      obtain ⟨value, -, hValue⟩ := Sequence.exists_step_of_mem hEach hSource
      exact ⟨value, hValue⟩
  | _ => simp [ofJson, Checked.complain] at hDump

/-- All source units of an accepted dump are named throughout. -/
theorem ofJson_named {json : Json} {dump : Dump} (hDump : ofJson json = .ok dump)
    (scopeName : String) : ∀ unit ∈ dump.sources scopeName, unit.Named := by
  intro unit hUnit
  obtain ⟨source, hSource, rfl⟩ := List.mem_map.mp hUnit
  obtain ⟨value, hValue⟩ := exists_sourceFile_of_mem_files hDump hSource
  exact sourceFile_named hValue scopeName

/-- So are those of a root, all of whose dumps were accepted. -/
theorem collect_named {disk : Disk} {location : Location} {scopeName : String}
    {units : List SourceUnit} (hUnits : collect disk location scopeName = .ok units) :
    ∀ unit ∈ units, unit.Named := by
  obtain ⟨places, dumps, -, hDumps, rfl⟩ := (collect_eq_ok_iff _ _ _ _).mp hUnits
  intro unit hUnit
  obtain ⟨dump, hDump, hUnit⟩ := List.mem_flatMap.mp hUnit
  rw [Sequence.mapM_eq_ok_iff] at hDumps
  obtain ⟨place, -, hLoad⟩ := Sequence.exists_step_of_mem hDumps hDump
  obtain ⟨json, hJson⟩ := exists_ofJson_of_load hLoad
  exact ofJson_named hJson scopeName unit hUnit

end Dump

/-- Where everything is named, so is every subject, and no part of the scope that it
is placed in is empty. -/
theorem Declaration.Named.placed {declaration : Declaration} (hNamed : declaration.Named) :
    ∀ placed ∈ declaration.placed, placed.subject.name ≠ "" ∧ "" ∉ placed.scope := by
  induction hNamed with
  | @module name body hOwn _ ih =>
      intro placed hMem
      rw [Declaration.placed, Declaration.placedOfAll_eq_flatMap] at hMem
      obtain ⟨inner, hInner, rfl⟩ := List.mem_map.mp hMem
      obtain ⟨child, hChild, hInner⟩ := List.mem_flatMap.mp hInner
      obtain ⟨hName, hScope⟩ := ih child hChild inner hInner
      exact ⟨hName, by simp [Placed.below, hScope, hOwn.symm]⟩
  | moduleElsewhere => simp [Declaration.placed]
  | function hOwn => simpa [Declaration.placed, Subject.name] using hOwn
  | dataType hOwn => simpa [Declaration.placed, Subject.name] using hOwn
  | implementation hOwn => simpa [Declaration.placed, Subject.name] using hOwn
  | other => simp [Declaration.placed]

/-- Below the scope of its file, a subject is reached by names that are not empty. -/
theorem SourceUnit.Named.reference {unit : SourceUnit} (hNamed : unit.Named) {placed : Placed}
    (hPlaced : placed ∈ unit.placed) :
    ∃ below, placed.reference.segments = unit.scope ++ below ∧ below ≠ [] ∧ "" ∉ below := by
  obtain ⟨inner, hInner, rfl⟩ := List.mem_map.mp hPlaced
  rw [Declaration.placedOfAll_eq_flatMap] at hInner
  obtain ⟨declaration, hDeclaration, hInner⟩ := List.mem_flatMap.mp hInner
  obtain ⟨hName, hScope⟩ := (hNamed.2 declaration hDeclaration).placed inner hInner
  refine ⟨inner.scope ++ [inner.subject.name], ?_, by simp, ?_⟩
  · simp [Placed.reference, Placed.below]
  · simp [hScope, hName.symm]

/-- In an accepted dump the names that an item needs are there at every depth and
are not empty. Its files stand for a scope with at least one segment, and their
declarations have names at every depth, whatever the name of the root. So a
survey of dumps lists paths of two segments or more: the scope of a file that was
collected, followed by at least one name, and none of these names is empty. -/
theorem accepted_dumps_name_every_declaration :
    (∀ json dump, Dump.ofJson json = .ok dump →
      (∀ source ∈ dump.files, ∀ item ∈ source.items, item.Named) ∧
      ∀ scopeName, ∀ unit ∈ dump.sources scopeName,
        unit.scope ≠ [] ∧ ∀ declaration ∈ unit.declarations, declaration.Named) ∧
    ∀ disk root names report, surveyRoot root names (Dump.collector disk) = .ok report →
      ∀ reference, report.Lists reference → 2 ≤ reference.segments.length ∧
        ∃ unit ∈ (root.collected (Dump.collector disk)).units, ∃ placed ∈ unit.placed,
          placed.reference = reference ∧
          ∃ below, reference.segments = unit.scope ++ below ∧ below ≠ [] ∧ "" ∉ below := by
  constructor
  · intro json dump hDump
    refine ⟨?_, Dump.ofJson_named hDump⟩
    intro source hSource
    obtain ⟨value, hValue⟩ := Dump.exists_sourceFile_of_mem_files hDump hSource
    exact Dump.sourceFile_items_named hValue
  · intro disk root names report hReport reference hLists
    obtain ⟨hFailure, hSurvey⟩ := (surveyRoot_eq_ok_iff _ _ _ _).mp hReport
    obtain ⟨unit, hUnit, placed, hPlaced, rfl⟩ := exists_placed_of_lists hSurvey hLists
    have hNamed := Dump.collect_named (Dump.collected_eq_ok hFailure) unit hUnit
    obtain ⟨below, hSegments, hSome, hNames⟩ := hNamed.reference hPlaced
    refine ⟨?_, unit, hUnit, placed, hPlaced, rfl, below, hSegments, hSome, hNames⟩
    have hScope := List.length_pos_iff.mpr hNamed.1
    have hBelow := List.length_pos_iff.mpr hSome
    rw [hSegments, List.length_append]
    omega

/-- A dump of one file with a module, a function in it, a data type and an implementation
block. -/
def shopDump : Json :=
  .object [("files", .array [.object [("file", .string "src/shop.rs"), ("items", .array [
    .object [("kind", .string "mod"), ("name", .string "api"), ("items", .array [
      .object [("kind", .string "fn"), ("name", .string "list"),
        ("annotations", .array [.object [("path", .string "utoipa::path")]])]])],
    .object [("kind", .string "struct"), ("name", .string "User")],
    .object [("kind", .string "impl"), ("self_type", .string "User"),
      ("trait", .string "utoipa::ToResponse")]])]])]

def shopItems : List Dump.Item :=
  [⟨"mod", some "api", [], [],
      some [⟨"fn", some "list", [⟨"utoipa::path", none⟩], [], none, none, none⟩], none, none⟩,
    ⟨"struct", some "User", [], [], none, none, none⟩,
    ⟨"impl", none, [], [], none, some "User", some "utoipa::ToResponse"⟩]

/-- A disk with nothing but this dump on it. -/
def shopDisk : Disk where
  tree := .directory [("d.json", Dump.fileOf shopDump)]

theorem ofJson_shopDump : Dump.ofJson shopDump = .ok ⟨[⟨"src/shop.rs", none, shopItems⟩]⟩ :=
  rfl

theorem surveyRoot_shopDisk :
    surveyRoot ⟨.ofText "d.json", "crate"⟩ ⟨"utoipa", "ToSchema", "ToResponse"⟩
      (Dump.collector shopDisk) =
        .ok ⟨[⟨["crate", "shop", "api", "list"]⟩], [], [⟨["crate", "shop", "User"]⟩]⟩ := by
  have hText : shopDisk.readText (.ofText "d.json") = .ok (Json.write 0 shopDump) := by
    decide +kernel
  have hNests : Json.Nests Dump.limits.containers shopDump := by
    simp [Dump.limits, shopDump, Json.nests_array_iff, Json.nests_object_iff, Json.Nests.string]
  have hSurvey : survey (Dump.sources ⟨[⟨"src/shop.rs", none, shopItems⟩]⟩ "crate")
      ⟨"utoipa", "ToSchema", "ToResponse"⟩ =
        .ok ⟨[⟨["crate", "shop", "api", "list"]⟩], [], [⟨["crate", "shop", "User"]⟩]⟩ := by
    decide +kernel
  rw [Dump.surveyRoot_of_written ⟨.ofText "d.json", "crate"⟩ hText hNests ofJson_shopDump, hSurvey]
  rfl

theorem declarations_shopItems :
    Dump.Item.declarations shopItems =
      [.module "api" [.function ⟨"list", [⟨⟨["utoipa", "path"], false⟩, none⟩]⟩],
        .dataType ⟨"User", [], []⟩,
        .implementation ⟨"User", some ⟨["utoipa", "ToResponse"], false⟩⟩] := by
  have hPath : QualifiedName.ofText "utoipa::path" = ⟨["utoipa", "path"], false⟩ := by
    decide +kernel
  have hCapability : Dump.capabilityOf (some "utoipa::ToResponse") =
      some ⟨["utoipa", "ToResponse"], false⟩ := by
    decide +kernel
  simp [Dump.Item.declarations_eq_map, shopItems, Dump.Item.declaration_eq, Dump.Note.toAttribute,
    hPath, hCapability, Dump.moduleKind, Dump.functionKind, Dump.dataTypeKinds,
    Dump.implementationKind]

/-- The items become declarations of their kinds, all of which have a name, and what the
survey lists lies below the scope of a file that was collected. -/
theorem accepted_dumps_name_every_declaration_of_shop :
    Dump.Item.declarations shopItems =
      [.module "api" [.function ⟨"list", [⟨⟨["utoipa", "path"], false⟩, none⟩]⟩],
        .dataType ⟨"User", [], []⟩,
        .implementation ⟨"User", some ⟨["utoipa", "ToResponse"], false⟩⟩] ∧
    (∀ declaration ∈ Dump.Item.declarations shopItems, declaration.Named) ∧
    ∀ reference ∈ [Reference.mk ["crate", "shop", "api", "list"], ⟨["crate", "shop", "User"]⟩],
      2 ≤ reference.segments.length ∧
      ∃ unit ∈ (Root.collected ⟨.ofText "d.json", "crate"⟩ (Dump.collector shopDisk)).units,
        ∃ below, reference.segments = unit.scope ++ below ∧ below ≠ [] ∧ "" ∉ below := by
  obtain ⟨hNamed, hLists⟩ := accepted_dumps_name_every_declaration
  refine ⟨declarations_shopItems, ?_, ?_⟩
  · exact ((hNamed _ _ ofJson_shopDump).2 "crate" _ List.mem_cons_self).2
  · intro reference hReference
    have hListed : Report.Lists ⟨[⟨["crate", "shop", "api", "list"]⟩], [],
        [⟨["crate", "shop", "User"]⟩]⟩ reference := by
      simpa [Report.Lists] using hReference
    obtain ⟨hLength, unit, hUnit, placed, -, -, hBelow⟩ :=
      hLists _ _ _ _ surveyRoot_shopDisk reference hListed
    exact ⟨hLength, unit, hUnit, hBelow⟩

end ApiSurvey
