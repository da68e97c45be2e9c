import ApiSurvey.Dump.Basic
import ApiSurvey.Survey.FileScope

/-! The source files of a dump. Only the fields that the kind of an item uses are looked at. -/
namespace ApiSurvey.Dump

def Note.toAttribute (note : Note) : Attribute :=
  ⟨.ofText note.path, note.arguments⟩

/-- The capability of an implementation block; an empty text is none. -/
def capabilityOf (capability : Option String) : Option QualifiedName :=
  match capability with
  | none => none
  | some text => if text.isEmpty then none else some (.ofText text)

mutual

/-- The declaration of an item. The schema has made sure of the names that are needed here. -/
def Item.declaration : Item → Declaration
  | ⟨kind, name, attributes, generics, items, selfType, capability⟩ =>
      let name := name.getD ""
      if kind == moduleKind then
        match items with
        | none => .moduleElsewhere name
        | some items => .module name (Item.declarations items)
      else if kind == functionKind then
        .function ⟨name, attributes.map Note.toAttribute⟩
      else if dataTypeKinds.contains kind then
        .dataType ⟨name, attributes.map Note.toAttribute, generics⟩
      else if kind == implementationKind then
        .implementation ⟨selfType.getD "", capabilityOf capability⟩
      else .other kind

def Item.declarations : List Item → List Declaration
  | [] => []
  | item :: items => item.declaration :: Item.declarations items

end

/-- What a survey sees of a source file. Where its scope is not given, it follows from the place
of the file below the root. -/
def SourceFile.toUnit (source : SourceFile) (root : String) : SourceUnit where
  scope := source.scope.getD (FileScope.ofFile root source.file)
  declarations := Item.declarations source.items
  source := source.file

end ApiSurvey.Dump
