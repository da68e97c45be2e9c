import ApiSurvey.Survey.Collector

/-! A registry keeps source files in memory, by the location of their root. -/
namespace ApiSurvey

/-- Source files by root, the latest registration first. -/
structure Registry where
  entries : List (Location × List SourceUnit) := []

namespace Registry

/-- Registers source files for a root. They take the place of those registered before. -/
def register (registry : Registry) (root : Location) (units : List SourceUnit) : Registry :=
  ⟨(root, units) :: registry.entries⟩

/-- A registry of several registrations, in order. -/
def ofList (registrations : List (Location × List SourceUnit)) : Registry :=
  registrations.foldl (fun registry (root, units) => registry.register root units) {}

def collect (registry : Registry) (root : Location) : Except Refusal (List SourceUnit) :=
  match registry.entries.lookup root with
  | some units => .ok units
  | none => .error ⟨root.text, .notFound⟩

/-- A registry as a collector. The name of the scope has no part in it. -/
def collector (registry : Registry) : Collector :=
  fun root _ => .ofExcept ((registry.collect root).mapError .refused)

end Registry

end ApiSurvey
