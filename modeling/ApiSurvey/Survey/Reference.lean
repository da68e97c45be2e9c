import ApiSurvey.Source.Declaration

/-! References: the full paths under which a survey lists declarations. -/
namespace ApiSurvey

/-- The full path of a declaration, from the outermost scope to its own name. -/
structure Reference where
  segments : List String
  deriving DecidableEq, Repr

namespace Reference

def ofName (scope : Scope) (name : String) : Reference :=
  ⟨scope ++ [name]⟩

/-- The declaration's own name. -/
def name (reference : Reference) : String :=
  reference.segments.getLastD ""

def scope (reference : Reference) : Scope :=
  reference.segments.dropLast

def text (reference : Reference) : String :=
  QualifiedName.separator.intercalate reference.segments

end Reference

/-- The scope of a module declared in a scope. -/
def Scope.enter (scope : Scope) (name : String) : Scope :=
  scope ++ [name]

end ApiSurvey
