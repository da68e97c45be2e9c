import ApiSurvey.Disk.Basic
import ApiSurvey.Dump.Complaint
import ApiSurvey.Settings.Value
import ApiSurvey.Text.ControlSequence

/-! Hosts of a run. What a run comes to depends on where it takes place, and not on its words and
the disk alone: on the words of the checker of dumps, on where standard error goes, and on how far
the stack of the runtime reaches. Nothing is said here about where the stack ends, except that this
is up to what is read, shown or made. -/
namespace ApiSurvey

/-- What a run takes from its host. -/
structure Host where
  /-- How the checker of dumps puts its complaints into words. -/
  wording : Dump.Wording
  /-- Whether standard error is a terminal. -/
  isTerminal : Bool
  /-- Whether the stack ends while a text is read as a document of settings. -/
  tooDeepToRead : List Char → Bool
  /-- Whether the stack ends while a setting is shown. -/
  tooDeepToShow : Setting → Bool
  /-- Whether the stack ends while the directories on the way to a location are made. -/
  tooDeepToMake : Disk → Location → Bool

/-- What a text looks like on standard error: anything but a terminal gets it without control
sequences. -/
def Host.standardError (host : Host) (text : String) : String :=
  if host.isTerminal then text else Text.withoutControl text

end ApiSurvey
