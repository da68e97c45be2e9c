import ApiSurvey.Proofs.Survey.FirstFault
import ApiSurvey.Proofs.Survey.Origin

/-! Moving a module into a file of its own. The module stays where it was, with
its body elsewhere, and the body becomes a file right behind the one that it was
taken from. A survey of the files still finds every subject once and under the
same reference. Only the subjects behind the module change places with those of
its body. -/
namespace ApiSurvey

/-- A place among declarations, at any depth: what stands before and behind it in
the same body, and the modules around that body. -/
inductive Spot where
  | here (before after : List Declaration)
  | inside (before : List Declaration) (name : String) (inner : Spot) (after : List Declaration)

namespace Spot

/-- All declarations, with this one in the place. -/
def fill (declaration : Declaration) : Spot → List Declaration
  | .here before after => before ++ declaration :: after
  | .inside before name inner after => before ++ .module name (inner.fill declaration) :: after

/-- The names of the modules around the place, the outermost one first. -/
def path : Spot → Scope
  | .here _ _ => []
  | .inside _ name inner _ => name :: inner.path

/-- The declarations behind the place in document order: those behind it in its own
body, and then those behind each of the modules around it. -/
def behind : Spot → List Declaration
  | .here _ after => after
  | .inside _ _ inner after => inner.behind ++ after

def placedBefore : Spot → List Placed
  | .here before _ => Declaration.placedOfAll before
  | .inside before name inner _ =>
      Declaration.placedOfAll before ++ inner.placedBefore.map (Placed.below [name])

/-- The subjects that come behind the place. Unlike `behind`, this keeps the modules
that they stand in. -/
def placedBehind : Spot → List Placed
  | .here _ after => Declaration.placedOfAll after
  | .inside _ name inner after =>
      inner.placedBehind.map (Placed.below [name]) ++ Declaration.placedOfAll after

end Spot

/-- Subjects below two scopes are below both of them joined. -/
theorem Placed.map_below_below (outer inner : Scope) (subjects : List Placed) :
    (subjects.map (below inner)).map (below outer) = subjects.map (below (outer ++ inner)) := by
  simp [below, Function.comp_def]

theorem Placed.map_below_nil (subjects : List Placed) : subjects.map (below []) = subjects :=
  List.map_id subjects

/-- What stands in a place comes between what stands before and what stands behind
it, below the modules around the place. -/
theorem Spot.placedOfAll_fill (spot : Spot) (declaration : Declaration) :
    Declaration.placedOfAll (spot.fill declaration) =
      spot.placedBefore ++ declaration.placed.map (Placed.below spot.path) ++
        spot.placedBehind := by
  induction spot with
  | here before after =>
      simp [fill, path, placedBefore, placedBehind, Placed.map_below_nil,
        Declaration.placedOfAll_eq_flatMap]
  | inside before name inner after ih =>
      -- The module puts its name around all three parts at once.
      have hModule : (Declaration.module name (inner.fill declaration)).placed =
          inner.placedBefore.map (Placed.below [name]) ++
            declaration.placed.map (Placed.below (name :: inner.path)) ++
              inner.placedBehind.map (Placed.below [name]) := by
        rw [Declaration.placed, ih, List.map_append, List.map_append, Placed.map_below_below]
        rfl
      rw [fill, Declaration.placedOfAll_eq_flatMap, List.flatMap_append, List.flatMap_cons,
        hModule, ← Declaration.placedOfAll_eq_flatMap, ← Declaration.placedOfAll_eq_flatMap]
      simp [path, placedBefore, placedBehind]

theorem Spot.placedBehind_eq_nil_iff (spot : Spot) :
    spot.placedBehind = [] ↔ Declaration.placedOfAll spot.behind = [] := by
  induction spot with
  | here before after => rfl
  | inside before name inner after ih =>
      simp only [placedBehind, behind, List.append_eq_nil_iff, List.map_eq_nil_iff, ih,
        Declaration.placedOfAll_eq_flatMap, List.flatMap_append]

/-- What a declaration at a spot places stands between what comes before the spot and
what comes behind it. -/
theorem SourceUnit.placed_of_fill {unit : SourceUnit} {spot : Spot} {declaration : Declaration}
    (hUnit : unit.declarations = spot.fill declaration) :
    unit.placed = spot.placedBefore.map (Placed.below unit.scope) ++
      declaration.placed.map (Placed.below (unit.scope ++ spot.path)) ++
        spot.placedBehind.map (Placed.below unit.scope) := by
  rw [placed, hUnit, spot.placedOfAll_fill, List.map_append, List.map_append,
    Placed.map_below_below]

/-- A module places its subjects as a file of its own does that stands for the same
scope. -/
theorem Declaration.placed_module_below (outer : Scope) (name : String) (body : List Declaration)
    (source : String) :
    (Declaration.module name body).placed.map (Placed.below outer) =
      SourceUnit.placed ⟨outer.enter name, body, source⟩ := by
  rw [Declaration.placed, Placed.map_below_below]
  rfl

/-- Two reports that list the same references equally often, in some order each. -/
structure Report.Permutes (report other : Report) : Prop where
  operations : report.operations.Perm other.operations
  models : report.models.Perm other.models
  responses : report.responses.Perm other.responses

section Reordered

variable {units others : List SourceUnit} (hPlaced : (placedIn units).Perm (placedIn others))
include hPlaced

/-- The order of the subjects has no part in whether a survey fails. It does in the
fault, which is that of the first site. -/
theorem exists_survey_eq_error_iff_of_perm (names : MarkerNames) :
    (∃ fault, survey units names = .error fault) ↔
      ∃ fault, survey others names = .error fault := by
  have hSites : (sitesIn units).Perm (sitesIn others) := hPlaced.flatMap_right _
  simp only [exists_survey_eq_error_iff, hSites.mem_iff]

/-- The same subjects are listed, though perhaps in another order. -/
theorem listing_perm (count : Subject → Nat) :
    (listing count (placedIn units)).Perm (listing count (placedIn others)) :=
  hPlaced.flatMap_right _

/-- Reports of source units that place the same subjects permute each other. -/
theorem permutes_of_survey_eq_ok {names : MarkerNames} {report other : Report}
    (hReport : survey units names = .ok report) (hOther : survey others names = .ok other) :
    report.Permutes other := by
  obtain rfl := eq_listed_of_survey_eq_ok hReport
  obtain rfl := eq_listed_of_survey_eq_ok hOther
  exact ⟨listing_perm hPlaced _, listing_perm hPlaced _, listing_perm hPlaced _⟩

end Reordered

/-- The file of its own that the body of a module in a place of a file moves to. -/
def Spot.ownFile (spot : Spot) (unit : SourceUnit) (name : String) (body : List Declaration)
    (source : String) : SourceUnit :=
  ⟨(unit.scope ++ spot.path).enter name, body, source⟩

/-- The files once the body of a module stands in a file of its own. Nothing else
changes in the file that declares the module, and the new file comes right behind it. -/
def relocated (before : List SourceUnit) (unit : SourceUnit) (after : List SourceUnit)
    (spot : Spot) (name : String) (body : List Declaration) (source : String) :
    List SourceUnit :=
  before ++ { unit with declarations := spot.fill (.moduleElsewhere name) } ::
    spot.ownFile unit name body source :: after

section Moved

variable (before after : List SourceUnit) (source : String)

/-- What a module that was moved to a file of its own places comes behind all that
its unit places. -/
theorem placedIn_relocated (unit : SourceUnit) (spot : Spot) (name : String)
    (body : List Declaration) :
    placedIn (relocated before unit after spot name body source) =
      placedIn before ++ (spot.placedBefore.map (Placed.below unit.scope) ++
        (spot.placedBehind.map (Placed.below unit.scope) ++
          ((spot.ownFile unit name body source).placed ++ placedIn after))) := by
  have hKept : SourceUnit.placed { unit with declarations := spot.fill (.moduleElsewhere name) } =
      _ := SourceUnit.placed_of_fill rfl
  simp [placedIn, relocated, hKept, Declaration.placed]

variable {unit : SourceUnit} {spot : Spot} {name : String} {body : List Declaration}
  (hUnit : unit.declarations = spot.fill (.module name body))
include hUnit

/-- What a module places inside its unit comes before all that is behind it there. -/
theorem placedIn_inline :
    placedIn (before ++ unit :: after) =
      placedIn before ++ (spot.placedBefore.map (Placed.below unit.scope) ++
        ((spot.ownFile unit name body source).placed ++
          (spot.placedBehind.map (Placed.below unit.scope) ++ placedIn after))) := by
  have hPlaced := SourceUnit.placed_of_fill hUnit
  rw [Declaration.placed_module_below _ _ _ source] at hPlaced
  simp [placedIn, hPlaced, Spot.ownFile]

/-- The subjects behind the module change places with those of its body. -/
theorem placedIn_relocated_perm :
    (placedIn (relocated before unit after spot name body source)).Perm
      (placedIn (before ++ unit :: after)) := by
  rw [placedIn_inline before after source hUnit, placedIn_relocated]
  -- All up to the module stays in front; what is left to swap are two neighbours.
  refine .append_left _ (.append_left _ ?_)
  rw [← List.append_assoc, ← List.append_assoc]
  exact List.perm_append_comm.append_right _

/-- If nothing is behind the module, moving it does not change the order. -/
theorem placedIn_relocated_of_last (hLast : Declaration.placedOfAll spot.behind = []) :
    placedIn (relocated before unit after spot name body source) =
      placedIn (before ++ unit :: after) := by
  rw [placedIn_inline before after source hUnit, placedIn_relocated,
    spot.placedBehind_eq_nil_iff.mpr hLast]
  simp

/-- A module at any depth of a file can move into a file of its own. The survey fails
afterwards exactly if it failed before; its report lists the same references, each
as often, and when no subject follows the module in its file nothing changes at
all. -/
theorem survey_of_relocated_module (names : MarkerNames) :
    ((∃ fault, survey (relocated before unit after spot name body source) names = .error fault) ↔
      ∃ fault, survey (before ++ unit :: after) names = .error fault) ∧
    (∀ moved report,
      survey (relocated before unit after spot name body source) names = .ok moved →
      survey (before ++ unit :: after) names = .ok report → moved.Permutes report) ∧
    (Declaration.placedOfAll spot.behind = [] →
      survey (relocated before unit after spot name body source) names =
        survey (before ++ unit :: after) names) := by
  have hPlaced := placedIn_relocated_perm before after source hUnit
  refine ⟨exists_survey_eq_error_iff_of_perm hPlaced names, ?_, ?_⟩
  · intro moved report hMoved hReport
    exact permutes_of_survey_eq_ok hPlaced hMoved hReport
  · intro hLast
    rw [survey_eq_mapM, survey_eq_mapM, placedIn_relocated_of_last before after source hUnit hLast]

end Moved

def pingFunction : Function :=
  ⟨"ping", [⟨⟨["utoipa", "path"], false⟩, none⟩]⟩

def usersBody : List Declaration :=
  [.function ⟨"list", [⟨⟨["utoipa", "path"], false⟩, none⟩]⟩,
    .dataType ⟨"User", [⟨⟨["derive"], false⟩, some "Clone, ToSchema"⟩], []⟩]

/-- A place in a module, with a function behind it in the same module. -/
def usersSpot : Spot :=
  .inside [] "api" (.here [] [.function pingFunction]) []

def serverUnit : SourceUnit where
  scope := ["crate"]
  declarations := [.module "api" [.module "users" usersBody, .function pingFunction]]
  source := "src/lib.rs"

/-- The order does change where a subject follows the module. -/
theorem survey_of_relocated_users :
    serverUnit.declarations = usersSpot.fill (.module "users" usersBody) ∧
    ∃ moved report,
      survey (relocated [] serverUnit [] usersSpot "users" usersBody "src/api/users.rs")
        ⟨"utoipa", "ToSchema", "ToResponse"⟩ = .ok moved ∧
      survey [serverUnit] ⟨"utoipa", "ToSchema", "ToResponse"⟩ = .ok report ∧
      moved.Permutes report ∧ moved ≠ report := by
  refine ⟨rfl, ⟨[⟨["crate", "api", "ping"]⟩, ⟨["crate", "api", "users", "list"]⟩],
      [⟨["crate", "api", "users", "User"]⟩], []⟩,
    ⟨[⟨["crate", "api", "users", "list"]⟩, ⟨["crate", "api", "ping"]⟩],
      [⟨["crate", "api", "users", "User"]⟩], []⟩, rfl, rfl, ?_, by decide⟩
  have hUnit : serverUnit.declarations = usersSpot.fill (.module "users" usersBody) := rfl
  obtain ⟨-, hPermutes, -⟩ := survey_of_relocated_module [] [] "src/api/users.rs" hUnit
    ⟨"utoipa", "ToSchema", "ToResponse"⟩
  exact hPermutes _ _ rfl rfl

end ApiSurvey
