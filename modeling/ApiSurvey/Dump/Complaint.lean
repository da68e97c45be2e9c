/-! Complaints about a dump that breaks its schema. -/
namespace ApiSurvey.Dump

/-- A step from a JSON value to one inside it. -/
inductive Step where
  | key (name : String)
  | index (position : Nat)
  deriving DecidableEq, Repr

inductive Complaint.Cause where
  /-- The text is no JSON. -/
  | malformed
  | missing
  | notString
  | notList
  | notObject
  /-- A module, function or data type without a name. -/
  | unnamed (kind : String)
  /-- An implementation block without a type. -/
  | noSelfType
  /-- A scope that is given but has no segments. -/
  | emptyScope
  deriving DecidableEq, Repr

structure Complaint where
  place : List Step
  cause : Complaint.Cause
  deriving DecidableEq, Repr

/-- How the complaints about a text are put into words. -/
abbrev Wording := List Char → List Complaint → String

/-- The words of a broken rule; breaches of shape have none. -/
def Complaint.Cause.rule? : Complaint.Cause → Option String
  | .unnamed kind => some (kind ++ " item requires a name")
  | .noSelfType => some "impl item requires a self_type"
  | .emptyScope => some "namespace must have at least one segment"
  | _ => none

/-- A checked value, or all complaints about it in order. -/
abbrev Checked (α : Type) := Except (List Complaint) α

namespace Checked

/-- A single complaint about the value itself. -/
def complain {α : Type} (cause : Complaint.Cause) : Checked α :=
  .error [⟨[], cause⟩]

/-- Complaints about a value as complaints about the value around it. -/
def within {α : Type} (step : Step) : Checked α → Checked α
  | .ok value => .ok value
  | .error complaints =>
      .error (complaints.map fun complaint => { complaint with place := step :: complaint.place })

/-- Applies a checked function to a checked value; the complaints about both are kept. -/
def apply {α β : Type} : Checked (α → β) → Checked α → Checked β
  | .ok function, .ok value => .ok (function value)
  | .ok _, .error complaints => .error complaints
  | .error complaints, .ok _ => .error complaints
  | .error first, .error second => .error (first ++ second)

end Checked

end ApiSurvey.Dump
