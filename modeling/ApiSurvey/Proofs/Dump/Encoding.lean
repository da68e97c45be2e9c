import ApiSurvey.Proofs.Dump.Naming
import ApiSurvey.Proofs.Source.Name
import ApiSurvey.Survey.Registry

/-! Source files written down as a dump. What is written is accepted by the schema
and read back as it was, so that it makes no difference to a survey whether the
files come from a dump or are kept in memory. -/
namespace ApiSurvey

/-- A declaration that can be written as an item and told from all others, and so
at every depth below it. -/
inductive Declaration.Encodable : Declaration → Prop where
  | module {name : String} {body : List Declaration} (own : name ≠ "")
      (inner : ∀ declaration ∈ body, Encodable declaration) : Encodable (.module name body)
  | moduleElsewhere {name : String} (own : name ≠ "") : Encodable (.moduleElsewhere name)
  | function {routine : Function} (own : routine.name ≠ "")
      (attributes : ∀ attr ∈ routine.attributes, attr.path.Writable) :
      Encodable (.function routine)
  | dataType {type : DataType} (own : type.name ≠ "")
      (attributes : ∀ attr ∈ type.attributes, attr.path.Writable) : Encodable (.dataType type)
  | implementation {block : Implementation} (own : block.selfType ≠ "")
      (capability : ∀ name ∈ block.capability, name.Writable ∧ name ≠ ⟨[], false⟩) :
      Encodable (.implementation block)
  | other {kind : String} (unknown : kind ∉ ["mod", "fn", "struct", "enum", "impl"]) :
      Encodable (.other kind)

/-- A source file that can be written down. -/
def SourceUnit.Encodable (unit : SourceUnit) : Prop :=
  unit.scope ≠ [] ∧ ∀ declaration ∈ unit.declarations, declaration.Encodable

/-- An attribute as an object; a bare one has no field for arguments. -/
def Attribute.json (attr : Attribute) : Json :=
  .object (("path", .string attr.path.text) ::
    attr.arguments.toList.map fun arguments => ("arguments", .string arguments))

/-- The members of an implementation block; an inherent one has no field for a
capability. -/
def Implementation.members (block : Implementation) : List (String × Json) :=
  ("kind", .string "impl") :: ("self_type", .string block.selfType) ::
    block.capability.toList.map fun capability => ("trait", .string capability.text)

/-- An object that writes a declaration down as an item of its kind. Every data
type is written as a structure or as an enumeration. -/
inductive Declaration.EncodedAs : Declaration → Json → Prop where
  | module {name : String} {body : List Declaration} {items : List Json}
      (length : body.length = items.length)
      (inner : ∀ pair ∈ body.zip items, EncodedAs pair.1 pair.2) :
      EncodedAs (.module name body) (.object
        [("kind", .string "mod"), ("name", .string name), ("items", .array items)])
  | moduleElsewhere {name : String} :
      EncodedAs (.moduleElsewhere name) (.object
        [("kind", .string "mod"), ("name", .string name)])
  | function {routine : Function} :
      EncodedAs (.function routine) (.object
        [("kind", .string "fn"), ("name", .string routine.name),
          ("annotations", .array (routine.attributes.map Attribute.json))])
  | dataType {type : DataType} {kind : String} (form : kind = "struct" ∨ kind = "enum") :
      EncodedAs (.dataType type) (.object
        [("kind", .string kind), ("name", .string type.name),
          ("annotations", .array (type.attributes.map Attribute.json)),
          ("generics", .array (type.generics.map .string))])
  | implementation {block : Implementation} :
      EncodedAs (.implementation block) (.object block.members)
  | other {kind : String} : EncodedAs (.other kind) (.object [("kind", .string kind)])

/-- An object that writes a source file down. Its scope is always given. -/
inductive SourceUnit.EncodedAs : SourceUnit → Json → Prop where
  | intro {unit : SourceUnit} {items : List Json}
      (each : List.Forall₂ Declaration.EncodedAs unit.declarations items) :
      EncodedAs unit (.object
        [("file", .string unit.source), ("namespace", .array (unit.scope.map .string)),
          ("items", .array items)])

/-- A dump that writes source files down in order. -/
inductive SourceUnit.AllEncodedAs : List SourceUnit → Json → Prop where
  | intro {units : List SourceUnit} {files : List Json}
      (each : List.Forall₂ SourceUnit.EncodedAs units files) :
      AllEncodedAs units (.object [("files", .array files)])

/-- Whatever can be encoded has an encoding, its inner declarations with it. -/
theorem Declaration.Encodable.exists_encodedAs {declaration : Declaration}
    (hEncodable : declaration.Encodable) : ∃ json, declaration.EncodedAs json := by
  induction hEncodable with
  | @module name body _ _ ih =>
      obtain ⟨items, hItems⟩ := Sequence.exists_forall₂_of_forall_mem ih
      obtain ⟨hLength, hEach⟩ := List.forall₂_iff_zip.mp hItems
      exact ⟨_, .module hLength fun pair hPair => hEach hPair⟩
  | moduleElsewhere => exact ⟨_, .moduleElsewhere⟩
  | function => exact ⟨_, .function⟩
  | dataType => exact ⟨_, .dataType (.inl rfl)⟩
  | implementation => exact ⟨_, .implementation⟩
  | other => exact ⟨_, .other⟩

namespace Dump

/-- Values that are written one by one are read one by one. -/
theorem list_map_eq_ok {α β : Type} {check : Json → Checked β} {encode : α → Json}
    {decode : α → β} {values : List α}
    (hEach : ∀ value ∈ values, check (encode value) = .ok (decode value)) :
    list check (.array (values.map encode)) = .ok (values.map decode) := by
  rw [list_eq_ok_iff]
  refine ⟨_, rfl, ?_⟩
  rw [List.forall₂_map_left_iff, List.forall₂_map_right_iff]
  exact List.forall₂_same.mpr hEach

theorem list_text_eq_ok (texts : List String) :
    list text (.array (texts.map .string)) = .ok texts := by
  have hEach : ∀ content ∈ texts, text (.string content) = .ok (id content) := fun _ _ => rfl
  rw [list_map_eq_ok hEach, List.map_id]

/-- What an attribute is written down as. -/
def noteOf (attr : Attribute) : Note :=
  ⟨attr.path.text, attr.arguments⟩

/-- An attribute is read back as the note that has its texts. -/
theorem note_json (attr : Attribute) : note attr.json = .ok (noteOf attr) := by
  cases hArguments : attr.arguments <;>
    simp [Attribute.json, noteOf, hArguments, note, required, optional, Json.member?, nullable,
      text, Checked.within, Checked.apply]

theorem list_note_json (attributes : List Attribute) :
    list note (.array (attributes.map Attribute.json)) =
      .ok (attributes.map noteOf) :=
  list_map_eq_ok fun attr _ => note_json attr

/-- Notes that were made of attributes stand for these attributes, if the paths can
be read back. -/
theorem toAttribute_noteOf {attributes : List Attribute}
    (hWritable : ∀ attr ∈ attributes, attr.path.Writable) :
    attributes.map (Note.toAttribute ∘ noteOf) = attributes := by
  conv_rhs => rw [← List.map_id attributes]
  refine List.map_congr_left ?_
  intro attr hMem
  simp [noteOf, Note.toAttribute, (hWritable attr hMem).ofText_text]

/-- An object is the item that its fields make up, if that item has what its kind
asks for. -/
theorem item_eq_ok {members : List (String × Json)} {result : Item}
    (hFields : itemFields members (optional members "items" none (nullable (list item))) =
      .ok result)
    (hRules : itemRules result = .ok result) : item (.object members) = .ok result := by
  rw [item_object, hFields, Sequence.ok_bind, hRules]

/-- A capability without a name would be none, and every other one is read back. -/
theorem capabilityOf_text {capability : Option QualifiedName}
    (hWritable : ∀ name ∈ capability, name.Writable ∧ name ≠ ⟨[], false⟩) :
    capabilityOf (capability.map QualifiedName.text) = capability := by
  cases capability with
  | none => rfl
  | some name =>
      obtain ⟨hName, hSome⟩ := hWritable name rfl
      simp [capabilityOf, hName.text_ne_empty hSome, hName.ofText_text]

/-- A list of values is read back if each of them is. -/
theorem exists_list_of_forall₂ {α β : Type} {check : Json → Checked β} {Back : α → β → Prop}
    {values : List α} {items : List Json}
    (hEach : List.Forall₂ (fun value json => ∃ result, check json = .ok result ∧ Back value result)
      values items) :
    ∃ results, list check (.array items) = .ok results ∧ List.Forall₂ Back values results := by
  simp only [list_eq_ok_iff, Json.array.injEq, exists_eq_left']
  induction hEach with
  | nil => exact ⟨[], .nil, .nil⟩
  | cons hFirst _ ih =>
      obtain ⟨result, hRead, hBack⟩ := hFirst
      obtain ⟨results, hRest, hBacks⟩ := ih
      exact ⟨result :: results, .cons hRead hRest, .cons hBack hBacks⟩

theorem map_eq_of_forall₂ {α β : Type} {back : β → α} {values : List α} {results : List β}
    (hEach : List.Forall₂ (fun value result => back result = value) values results) :
    results.map back = values := by
  induction hEach with
  | nil => rfl
  | cons hFirst _ ih => rw [List.map_cons, hFirst, ih]

/-- What is written for a declaration is an item, and the declaration of the item
is the one that was written. -/
theorem item_encodedAs {declaration : Declaration} {json : Json}
    (hEncoded : declaration.EncodedAs json) (hEncodable : declaration.Encodable) :
    ∃ result, item json = .ok result ∧ result.declaration = declaration := by
  induction hEncoded with
  | @module name body items hLength _ ih =>
      cases hEncodable with
      | module hOwn hInner =>
          have hEach : List.Forall₂ (fun declaration json =>
              ∃ result, item json = .ok result ∧ result.declaration = declaration) body items :=
            List.forall₂_iff_zip.mpr ⟨hLength, fun hPair =>
              ih _ hPair (hInner _ (List.of_mem_zip hPair).1)⟩
          obtain ⟨results, hRead, hBack⟩ := exists_list_of_forall₂ hEach
          refine ⟨⟨"mod", some name, [], [], some results, none, none⟩, item_eq_ok ?_ ?_, ?_⟩
          · rw [itemFields_eq_ok_iff]
            simp [required, optional, Json.member?, nullable, text, Checked.within, hRead]
          · simp [itemRules_eq_ok_iff, hOwn, implementationKind]
          · simp [Item.declaration_eq, moduleKind, map_eq_of_forall₂ hBack]
  | @moduleElsewhere name =>
      cases hEncodable with
      | moduleElsewhere hOwn =>
          refine ⟨⟨"mod", some name, [], [], none, none, none⟩, item_eq_ok ?_ ?_, ?_⟩
          · rw [itemFields_eq_ok_iff]
            simp [required, optional, Json.member?, nullable, text, Checked.within]
          · simp [itemRules_eq_ok_iff, hOwn, implementationKind]
          · simp [Item.declaration_eq, moduleKind]
  | @function routine =>
      cases hEncodable with
      | function hOwn hWritable =>
          refine ⟨⟨"fn", some routine.name, routine.attributes.map noteOf, [], none, none, none⟩,
            item_eq_ok ?_ ?_, ?_⟩
          · rw [itemFields_eq_ok_iff]
            simp [required, optional, Json.member?, nullable, text, Checked.within, list_note_json]
          · simp [itemRules_eq_ok_iff, hOwn, implementationKind]
          · simp [Item.declaration_eq, moduleKind, functionKind, toAttribute_noteOf hWritable]
  | @dataType type kind hForm =>
      cases hEncodable with
      | dataType hOwn hWritable =>
          have hKind : kind ≠ "mod" ∧ kind ≠ "fn" ∧ kind ≠ "impl" := by
            rcases hForm with rfl | rfl <;> decide
          refine ⟨⟨kind, some type.name, type.attributes.map noteOf, type.generics, none, none,
            none⟩, item_eq_ok ?_ ?_, ?_⟩
          · rw [itemFields_eq_ok_iff]
            simp [required, optional, Json.member?, nullable, text, Checked.within, list_note_json,
              list_text_eq_ok]
          · simp [itemRules_eq_ok_iff, hOwn, implementationKind, hKind]
          · simp [Item.declaration_eq, moduleKind, functionKind, dataTypeKinds, hKind, hForm,
              toAttribute_noteOf hWritable]
  | @implementation block =>
      cases hEncodable with
      | implementation hOwn hWritable =>
          refine ⟨⟨"impl", none, [], [], none, some block.selfType,
            block.capability.map QualifiedName.text⟩, item_eq_ok ?_ ?_, ?_⟩
          · rw [itemFields_eq_ok_iff]
            cases hCapability : block.capability <;>
              simp [Implementation.members, hCapability, required, optional, Json.member?, nullable,
                text, Checked.within]
          · simp [itemRules_eq_ok_iff, hOwn, namedKinds, moduleKind, functionKind, dataTypeKinds]
          · simp [Item.declaration_eq, moduleKind, functionKind, dataTypeKinds, implementationKind,
              capabilityOf_text hWritable]
  | @other kind =>
      cases hEncodable with
      | other hUnknown =>
          simp only [List.mem_cons, List.not_mem_nil, or_false, not_or] at hUnknown
          refine ⟨⟨kind, none, [], [], none, none, none⟩, item_eq_ok ?_ ?_, ?_⟩
          · rw [itemFields_eq_ok_iff]
            simp [required, optional, Json.member?, text, Checked.within]
          · simp [itemRules_eq_ok_iff, namedKinds, moduleKind, functionKind, dataTypeKinds,
              implementationKind, hUnknown]
          · simp [Item.declaration_eq, moduleKind, functionKind, dataTypeKinds, implementationKind,
              hUnknown]

/-- The encoding of a source unit is accepted, and the source file that is read has
this unit whatever the name of the scope. -/
theorem sourceFile_encodedAs {unit : SourceUnit} {json : Json} (hEncoded : unit.EncodedAs json)
    (hEncodable : unit.Encodable) :
    ∃ result, sourceFile json = .ok result ∧ ∀ scopeName, result.toUnit scopeName = unit := by
  obtain ⟨hScope, hDeclarations⟩ := hEncodable
  cases hEncoded with
  | @intro items hEach =>
      obtain ⟨results, hRead, hBack⟩ := exists_list_of_forall₂ <|
        Sequence.forall₂_imp_of_mem (fun declaration hMem json hEncoded =>
          item_encodedAs hEncoded (hDeclarations declaration hMem)) hEach
      have hFields : sourceFields [("file", .string unit.source),
          ("namespace", .array (unit.scope.map .string)), ("items", .array items)] =
            .ok ⟨unit.source, some unit.scope, results⟩ := by
        rw [sourceFields_eq_ok_iff]
        simp [required, optional, Json.member?, nullable, text, Checked.within, hRead,
          list_text_eq_ok]
      refine ⟨⟨unit.source, some unit.scope, results⟩, ?_, ?_⟩
      · rw [sourceFile_object, hFields, Sequence.ok_bind]
        simp [sourceFileRules, hScope]
      · intro scopeName
        simp [SourceFile.toUnit, Item.declarations_eq_map, map_eq_of_forall₂ hBack]

/-- A dump of source files is accepted, and its files are the ones that were
written, whatever the name of the root. -/
theorem ofJson_encodedAs {units : List SourceUnit} {json : Json}
    (hEncoded : SourceUnit.AllEncodedAs units json) (hEncodable : ∀ unit ∈ units, unit.Encodable) :
    ∃ dump, ofJson json = .ok dump ∧ ∀ scopeName, dump.sources scopeName = units := by
  cases hEncoded with
  | @intro files hEach =>
      obtain ⟨results, hRead, hBack⟩ := exists_list_of_forall₂ <|
        Sequence.forall₂_imp_of_mem (fun unit hMem json hEncoded =>
          sourceFile_encodedAs hEncoded (hEncodable unit hMem)) hEach
      refine ⟨⟨results⟩, ?_, ?_⟩
      · simp [ofJson, required, Json.member?, Checked.within, hRead]
      · intro scopeName
        exact map_eq_of_forall₂ (hBack.imp fun _ _ hUnit => hUnit scopeName)

end Dump

/-- Source files that can be written down have a dump. Each of their dumps is
accepted and read back as the same files, whatever the name of the root. So a
survey of the dump's files is the survey of a registry that keeps the files
themselves, and it makes no difference that the dump is read from a file first:
reports and faults are the same. -/
theorem dump_agrees_with_registry (units : List SourceUnit)
    (hEncodable : ∀ unit ∈ units, unit.Encodable) :
    (∃ json, SourceUnit.AllEncodedAs units json) ∧
    ∀ json, SourceUnit.AllEncodedAs units json → ∃ dump, Dump.ofJson json = .ok dump ∧
      (∀ scopeName, dump.files.map (·.toUnit scopeName) = units) ∧
      ∀ registry kept, Registry.collect registry kept.location = .ok units → ∀ names,
        (∀ scopeName, (survey (dump.sources scopeName) names).mapError .markers =
          surveyRoot kept names registry.collector) ∧
        ∀ disk stored content, Disk.readText disk stored.location = .ok content →
          Json.read? Dump.limits content = some json →
            surveyRoot stored names (Dump.collector disk) =
              surveyRoot kept names registry.collector := by
  constructor
  · have hFiles : ∀ unit ∈ units, ∃ json, unit.EncodedAs json := by
      intro unit hUnit
      obtain ⟨items, hItems⟩ := Sequence.exists_forall₂_of_forall_mem
        fun declaration hMem => ((hEncodable unit hUnit).2 declaration hMem).exists_encodedAs
      exact ⟨_, .intro hItems⟩
    obtain ⟨files, hFiles⟩ := Sequence.exists_forall₂_of_forall_mem hFiles
    exact ⟨_, .intro hFiles⟩
  · intro json hEncoded
    obtain ⟨dump, hDump, hSources⟩ := Dump.ofJson_encodedAs hEncoded hEncodable
    refine ⟨dump, hDump, hSources, ?_⟩
    intro registry kept hKept names
    have hCollected : kept.collected registry.collector = .ofExcept (.ok units) := by
      simp [Root.collected, Registry.collector, hKept]
    rw [surveyRoot_of_collected hCollected]
    refine ⟨fun scopeName => by rw [hSources], ?_⟩
    intro disk stored content hText hRead
    rw [Dump.surveyRoot_of_readText stored hText hRead hDump, hSources]

/-- A file with declarations of all sorts, some of them in a module. -/
def pagesUnit : SourceUnit where
  scope := ["api"]
  declarations :=
    [.module "pages"
      [.dataType ⟨"Page", [⟨⟨["derive"], false⟩, some "ToSchema"⟩], ["T"]⟩,
        .implementation ⟨"Page", some ⟨["utoipa", "IntoResponses"], true⟩⟩],
      .function ⟨"list", [⟨⟨["utoipa", "path"], false⟩, none⟩]⟩,
      .moduleElsewhere "errors", .other "use"]
  source := "api.rs"

theorem dump_agrees_with_registry_of_pages :
    pagesUnit.Encodable ∧ ∃ json dump, SourceUnit.AllEncodedAs [pagesUnit] json ∧
      Dump.ofJson json = .ok dump ∧ dump.sources "crate" = [pagesUnit] := by
  have hPage : Declaration.Encodable
      (.dataType ⟨"Page", [⟨⟨["derive"], false⟩, some "ToSchema"⟩], ["T"]⟩) :=
    .dataType (by decide) (by decide)
  have hResponses : Declaration.Encodable
      (.implementation ⟨"Page", some ⟨["utoipa", "IntoResponses"], true⟩⟩) :=
    .implementation (by decide) (by decide)
  have hList : Declaration.Encodable
      (.function ⟨"list", [⟨⟨["utoipa", "path"], false⟩, none⟩]⟩) :=
    .function (by decide) (by decide)
  have hUnit : pagesUnit.Encodable := by
    refine ⟨by simp [pagesUnit], ?_⟩
    simp only [pagesUnit, List.forall_mem_cons, List.not_mem_nil, false_implies, implies_true,
      and_true]
    refine ⟨.module (by decide) ?_, hList, .moduleElsewhere (by decide), .other (by decide)⟩
    simp [hPage, hResponses]
  obtain ⟨⟨json, hEncoded⟩, hEach⟩ := dump_agrees_with_registry [pagesUnit] (by simpa using hUnit)
  obtain ⟨dump, hDump, hSources, -⟩ := hEach json hEncoded
  exact ⟨hUnit, json, dump, hEncoded, hDump, hSources "crate"⟩

end ApiSurvey
