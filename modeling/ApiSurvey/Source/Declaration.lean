import ApiSurvey.Source.Attribute

/-! Declarations of a parsed source file, as far as a survey looks at them. -/
namespace ApiSurvey

structure Function where
  name : String
  attributes : List Attribute := []
  deriving DecidableEq, Repr

/-- A structure or an enumeration. -/
structure DataType where
  name : String
  attributes : List Attribute := []
  generics : List String := []
  deriving DecidableEq, Repr

/-- An implementation block: the type that it is for and, unless it is inherent, the capability
that it implements. -/
structure Implementation where
  selfType : String
  capability : Option QualifiedName := none
  deriving DecidableEq, Repr

/-- A declaration. The body of a module stands in the same file or in one of its own. -/
inductive Declaration where
  | module (name : String) (body : List Declaration)
  | moduleElsewhere (name : String)
  | function (routine : Function)
  | dataType (type : DataType)
  | implementation (block : Implementation)
  /-- Anything else, of which only the kind is known. -/
  | other (kind : String)
  deriving Inhabited

/-- The names of the modules around a declaration, from the outermost to the innermost. -/
abbrev Scope := List String

/-- A parsed source file: the scope that it stands for, its declarations, and where it was read
from. -/
structure SourceUnit where
  scope : Scope
  declarations : List Declaration := []
  source : String := ""

end ApiSurvey
