import ApiSurvey.Command.Arguments
import ApiSurvey.Disk.Update
import ApiSurvey.Dump.Collector
import ApiSurvey.Fault
import ApiSurvey.Json.Writer
import ApiSurvey.Settings.File
import ApiSurvey.Settings.Markers
import ApiSurvey.Settings.Roots
import ApiSurvey.Text.ControlSequence

/-! The command that surveys the dumps of a disk and reports what it found as JSON. A run of the
command is a function of the disk: it answers with the exit status, both outputs and the disk as it
is afterwards. -/
namespace ApiSurvey.Command

/-- What the command is asked to do. -/
structure Request where
  root : Option Location := none
  scopeName : Option String := none
  settings : Option Location := none
  markers : SettingTable := []
  output : Location

/-- The location that stands for standard output. -/
def standardOutput : String := "-"

/-- The marker names given on the command line, as settings. -/
def markerOverrides (arguments : Arguments) : SettingTable :=
  let override (option : Opt) : Setting := (arguments.value? option).elim .null .string
  [(MarkerNames.functionKey, override .functionMarker),
    (MarkerNames.modelKey, override .modelMarker),
    (MarkerNames.responseKey, override .responseMarker)]

/-- Whether a word that is a location holds a null character. The last word for each counts. -/
def hasNullLocation (arguments : Arguments) : Bool :=
  let locations := arguments.words ++ (arguments.value? .settings).toList ++
    (arguments.value? .output).toList
  locations.any fun word => word.toList.contains (Char.ofNat 0)

/-- The request of a command line, unless it has more than one root, or a location in it is none. -/
def Request.ofArguments? (arguments : Arguments) : Option Request :=
  if arguments.words.length > 1 || hasNullLocation arguments then none
  else some
    { root := arguments.words.head?.map Location.ofText
      scopeName := arguments.value? .scopeName
      settings := (arguments.value? .settings).map Location.ofText
      markers := markerOverrides arguments
      output := .ofText ((arguments.value? .output).getD standardOutput) }

/-- Why a run breaks off without a message of its own. -/
inductive Crash where
  /-- The settings cannot be loaded. -/
  | settings (fault : Settings.LoadFault)
  /-- A bad setting cannot be shown. -/
  | unshowable (cause : Setting.Unshowable)
  /-- The output cannot be written. -/
  | output (failure : Disk.WriteFailure)

/-- How a run ends. -/
inductive Exit where
  | success
  | failed
  | misused
  | crashed (crash : Crash)

def Exit.status : Exit → Nat
  | .success => 0
  | .failed => 1
  | .misused => 2
  | .crashed _ => 1

/-- What a run leaves behind. -/
structure Outcome where
  exit : Exit
  stdout : String := ""
  stderr : String := ""
  disk : Disk

/-- Why there is no report. -/
inductive Stop where
  /-- No root is given, neither as an argument nor by the settings. -/
  | noRoots
  | fault (fault : Fault)
  | settings (fault : Settings.LoadFault)

def Request.settingsFile (request : Request) : Location :=
  Settings.locate none request.settings

/-- The scope name of roots that name none. An empty name is as good as none. -/
def Request.defaultScope (request : Request) : String :=
  match request.scopeName with
  | some name => if name.isEmpty then defaultScopeName else name
  | none => defaultScopeName

/-- The roots of a request: its own root, and else those of the settings. -/
def Request.roots (request : Request) (host : Host) (disk : Disk) : Except Stop (List Root) :=
  match request.root with
  | some location => .ok [⟨location, request.defaultScope⟩]
  | none => do
      let table ← (Settings.roots host.tooDeepToRead disk request.settingsFile).mapError .settings
      let roots ← (Root.ofSetting (Settings.rootsOf table) request.defaultScope).mapError
        (.fault ∘ .settings)
      if roots.isEmpty then .error .noRoots else .ok roots

/-- The marker names of a request: its own ones over those of the settings. -/
def Request.markerNames (request : Request) (host : Host) (disk : Disk) :
    Except Stop MarkerNames := do
  let table ← (Settings.markers host.tooDeepToRead disk request.settingsFile).mapError .settings
  (MarkerNames.resolve request.markers table).mapError (.fault ∘ .settings)

/-- The report that a request asks for. -/
def Request.report (request : Request) (host : Host) (disk : Disk) : Except Stop Report := do
  let roots ← request.roots host disk
  let names ← request.markerNames host disk
  (surveyRoots roots names (Dump.collector disk)).mapError (.fault ∘ .survey)

def referencesJson (references : List Reference) : Json :=
  .array (references.map fun reference => .string reference.text)

/-- A report as JSON, its keys in alphabetical order. -/
def reportJson (report : Report) : Json :=
  .object
    [("models", referencesJson report.models),
      ("operations", referencesJson report.operations),
      ("responses", referencesJson report.responses)]

/-- Writes a text and a line end to standard output or to a file. -/
def emit (host : Host) (disk : Disk) (output : Location) (text : String) : Outcome :=
  let line := text ++ "\n"
  if output.text == standardOutput then { exit := .success, stdout := line, disk := disk }
  else
    match disk.writeFile host.tooDeepToMake output (Text.Utf8.encode line) with
    | .ok changed => { exit := .success, disk := changed }
    | .error failure => { exit := .crashed (.output failure), disk := disk }

/-- Reports a fault on standard error. -/
def complain (host : Host) (disk : Disk) (fault : Fault) : Outcome :=
  match fault.message host with
  | .ok words =>
      { exit := .failed
        stderr := host.standardError ("apimark: " ++ words ++ "\n")
        disk := disk }
  | .error cause => { exit := .crashed (.unshowable cause), disk := disk }

def Request.run (request : Request) (host : Host) (disk : Disk) : Outcome :=
  match request.report host disk with
  | .ok report => emit host disk request.output (reportJson report).text
  | .error .noRoots => { exit := .misused, disk := disk }
  | .error (.fault fault) => complain host disk fault
  | .error (.settings fault) => { exit := .crashed (.settings fault), disk := disk }

def run (words : List String) (host : Host) (disk : Disk) : Outcome :=
  match invocation? words with
  | none => { exit := .misused, disk := disk }
  | some .help =>
      { exit := .success, stdout := "Usage: apimark discover [OPTIONS] [ROOT]\n", disk := disk }
  | some (.discover arguments) =>
      match Request.ofArguments? arguments with
      | none => { exit := .misused, disk := disk }
      | some request => request.run host disk

end ApiSurvey.Command
