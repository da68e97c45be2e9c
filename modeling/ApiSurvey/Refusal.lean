import ApiSurvey.Dump.Complaint
import ApiSurvey.FileTree.Basic
import ApiSurvey.Text.Utf8

/-! Refusals: why the source files of a root could not be collected. -/
namespace ApiSurvey

/-- Why a text could not be read from a file. -/
inductive Unreadable where
  | access (failure : FileTree.Failure) (location : Location)
  | encoding (fault : Text.Utf8.Fault)
  deriving DecidableEq, Repr

def Unreadable.message : Unreadable → String
  | .access failure location => failure.message location
  | .encoding fault => fault.message

inductive Refusal.Reason where
  /-- There is nothing at the root. -/
  | notFound
  | unreadable (cause : Unreadable)
  /-- A text is no dump. -/
  | invalidDump (text : List Char) (complaints : List Dump.Complaint)
  /-- What a collector says for itself. -/
  | told (text : String)
  deriving DecidableEq, Repr

/-- A refusal: the place that it is about, and the reason. -/
structure Refusal where
  place : String
  reason : Refusal.Reason
  deriving DecidableEq, Repr

/-- The words of a reason. The complaints about a text are put into words by its checker. -/
def Refusal.Reason.message (wording : Dump.Wording) : Refusal.Reason → String
  | .notFound => "path not found"
  | .unreadable cause => "unreadable: " ++ cause.message
  | .invalidDump text complaints => "invalid syntax dump: " ++ wording text complaints
  | .told text => text

/-- A reason without words is left out. -/
def Refusal.message (wording : Dump.Wording) (refusal : Refusal) : String :=
  let reason := refusal.reason.message wording
  "Failed to collect parsed files from " ++ refusal.place ++
    (if reason.isEmpty then "" else ": " ++ reason)

end ApiSurvey
