/-! Syntax dumps: what an external parser writes down about source files. A dump names the kind of
every item and gives the fields of all kinds; which of them count depends on the kind. -/
namespace ApiSurvey.Dump

/-- An attribute: its path as written, and its arguments unless it is bare. -/
structure Note where
  path : String
  arguments : Option String := none
  deriving DecidableEq, Repr

structure Item where
  kind : String
  name : Option String := none
  attributes : List Note := []
  generics : List String := []
  items : Option (List Item) := none
  selfType : Option String := none
  capability : Option String := none

/-- A source file, with the scope that it stands for if that is given. -/
structure SourceFile where
  file : String
  scope : Option (List String) := none
  items : List Item := []

end ApiSurvey.Dump

namespace ApiSurvey

/-- A syntax dump. -/
structure Dump where
  files : List Dump.SourceFile

namespace Dump

def moduleKind : String := "mod"

def functionKind : String := "fn"

def dataTypeKinds : List String := ["struct", "enum"]

def implementationKind : String := "impl"

/-- The kinds of items that have a name. -/
def namedKinds : List String := moduleKind :: functionKind :: dataTypeKinds

end Dump

end ApiSurvey
