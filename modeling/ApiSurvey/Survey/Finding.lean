import ApiSurvey.MarkerList
import ApiSurvey.Survey.Reference

/-! Findings: what a survey notes about single declarations. A function is an operation once for
every attribute that names the function marker; a data type is a model or a response by the
markers that it lists; an implementation block stands for its type by the capability that it
implements. -/
namespace ApiSurvey

/-- The marker names that a survey looks for. -/
structure MarkerNames where
  function : String
  model : String
  response : String
  deriving DecidableEq, Repr

/-- What a finding says about its declaration. -/
inductive Finding.Kind where
  | operation
  | model
  | responseModel
  /-- A model whose schema is implemented by hand. -/
  | customModel
  /-- A response that is implemented by hand. -/
  | customResponse
  deriving DecidableEq, Repr

/-- A declaration that a survey lists. -/
structure Finding where
  kind : Finding.Kind
  reference : Reference
  deriving DecidableEq, Repr

namespace Finding.Kind

def text : Kind → String
  | .operation => "operation"
  | .model => "model"
  | .responseModel => "response_model"
  | .customModel => "custom_model_impl"
  | .customResponse => "custom_response_impl"

def all : List Kind :=
  [.operation, .model, .responseModel, .customModel, .customResponse]

def ofText? (name : String) : Option Kind :=
  all.find? fun kind => kind.text == name

end Finding.Kind

/-- The scope of the markers that every survey knows. -/
def builtinScope : String := "utoipa"

/-- The model marker of `builtinScope`. -/
def builtinModel : String := "ToSchema"

/-- The response marker of `builtinScope`. -/
def builtinResponse : String := "ToResponse"

def Function.findings (function : Function) (scope : Scope) (names : MarkerNames) :
    List Finding :=
  if isIgnored function.attributes then []
  else
    (function.attributes.filter fun attr =>
      attr.path.segments.contains names.function).map fun _ =>
        ⟨.operation, .ofName scope function.name⟩

/-- What a marker says about the data type that lists it. A marker of two segments in the built-in
scope counts by its second segment alone; every other one must be a configured name. -/
def markerKinds (marker : QualifiedName) (names : MarkerNames) : List Finding.Kind :=
  let configured :=
    (if marker.isIdent names.model then [Finding.Kind.model] else []) ++
      (if marker.isIdent names.response then [Finding.Kind.responseModel] else [])
  match marker.segments with
  | [scope, name] =>
      if scope == builtinScope then
        if name == builtinModel then [.model]
        else if name == builtinResponse then [.responseModel]
        else []
      else configured
  | _ => configured

/-- Whether a survey looks at the markers of a data type: it has no parameters of its own, and no
attribute asks to leave it out. -/
def DataType.isSurveyed (dataType : DataType) : Bool :=
  dataType.generics.isEmpty && !isIgnored dataType.attributes

/-- The markers of all lists of a data type, in order. -/
def DataType.markers (dataType : DataType) : Except MarkerFault (List QualifiedName) := do
  let lists ← (dataType.attributes.filter Attribute.listsMarkers).mapM fun attr =>
    attr.markersOn dataType.name
  return lists.flatten

/-- The findings of a data type. The markers of one that is not surveyed are never read. -/
def DataType.findings (dataType : DataType) (scope : Scope) (names : MarkerNames) :
    Except MarkerFault (List Finding) := do
  if !dataType.isSurveyed then return []
  let markers ← dataType.markers
  return (markers.flatMap (markerKinds · names)).map fun kind =>
    ⟨kind, .ofName scope dataType.name⟩

/-- The findings of an implementation block. Only the last segment of the capability counts, and
the model marker comes before the response marker. -/
def Implementation.findings (block : Implementation) (scope : Scope) (names : MarkerNames) :
    List Finding :=
  match block.capability with
  | none => []
  | some capability =>
      if capability.last == names.model then [⟨.customModel, .ofName scope block.selfType⟩]
      else if capability.last == names.response then
        [⟨.customResponse, .ofName scope block.selfType⟩]
      else []

mutual

/-- The findings of a declaration. A module whose body stands elsewhere has none: they come with
the file of its own. -/
def Declaration.findings (names : MarkerNames) (scope : Scope) :
    Declaration → Except MarkerFault (List Finding)
  | .module name body => Declaration.findingsOfAll names (scope.enter name) body
  | .moduleElsewhere _ => .ok []
  | .function routine => .ok (routine.findings scope names)
  | .dataType type => type.findings scope names
  | .implementation block => .ok (block.findings scope names)
  | .other _ => .ok []

/-- The findings of declarations in one scope, in order; the first fault ends the survey. -/
def Declaration.findingsOfAll (names : MarkerNames) (scope : Scope) :
    List Declaration → Except MarkerFault (List Finding)
  | [] => .ok []
  | declaration :: rest =>
      (declaration.findings names scope).bind fun first =>
        (Declaration.findingsOfAll names scope rest).map (first ++ ·)

end

def SourceUnit.findings (unit : SourceUnit) (names : MarkerNames) :
    Except MarkerFault (List Finding) :=
  Declaration.findingsOfAll names unit.scope unit.declarations

end ApiSurvey
