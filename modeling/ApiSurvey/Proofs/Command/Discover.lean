import ApiSurvey.Proofs.Command.Arguments
import ApiSurvey.Proofs.Dump.Directory
import ApiSurvey.Proofs.Disk.Write
import ApiSurvey.Proofs.Json.RoundTrip

/-! What a run of the command leaves behind. The roots come before the marker
names and these before the survey; the first of these stages that fails decides
how the run ends, and only a run that gets through all of them writes anything. -/
namespace ApiSurvey.Command

section Stages

variable (request : Request) (host : Host) (disk : Disk)

/-- The settings of the roots in a settings file. -/
def rootSetting (table : SettingTable) : Setting :=
  Settings.rootsOf (table.subtable Settings.rootSection)

/-- The roots that are to be surveyed: the one that is given, and else all those
of the settings. -/
inductive GivesRoots : List Root → Prop where
  | argument {location : Location} (given : request.root = some location) :
      GivesRoots [⟨location, request.defaultScope⟩]
  | settings {table : SettingTable} {roots : List Root} (absent : request.root = none)
      (loaded : Settings.load host.tooDeepToRead disk request.settingsFile = .ok table)
      (parsed : Root.ofSetting (rootSetting table) request.defaultScope = .ok roots) :
      GivesRoots roots

/-- The marker names in force: those of the request over those of the settings. -/
def resolved (table : SettingTable) : Except SettingsFault MarkerNames :=
  MarkerNames.resolve request.markers (table.subtable Settings.markerSection)

/-- What goes wrong in a stage after all stages before it went well. -/
inductive Raises : Fault → Prop where
  | roots {table : SettingTable} {fault : SettingsFault} (absent : request.root = none)
      (loaded : Settings.load host.tooDeepToRead disk request.settingsFile = .ok table)
      (raised : Root.ofSetting (rootSetting table) request.defaultScope = .error fault) :
      Raises (.settings fault)
  | markers {roots : List Root} {table : SettingTable} {fault : SettingsFault}
      (given : GivesRoots request host disk roots) (some : roots ≠ [])
      (loaded : Settings.load host.tooDeepToRead disk request.settingsFile = .ok table)
      (raised : resolved request table = .error fault) : Raises (.settings fault)
  | survey {roots : List Root} {table : SettingTable} {names : MarkerNames} {fault : SurveyFault}
      (given : GivesRoots request host disk roots) (some : roots ≠ [])
      (loaded : Settings.load host.tooDeepToRead disk request.settingsFile = .ok table)
      (named : resolved request table = .ok names)
      (raised : surveyRoots roots names (Dump.collector disk) = .error fault) :
      Raises (.survey fault)

/-- The report of a request all of whose stages go well. -/
inductive Reports : Report → Prop where
  | intro {roots : List Root} {table : SettingTable} {names : MarkerNames} {report : Report}
      (given : GivesRoots request host disk roots) (some : roots ≠ [])
      (loaded : Settings.load host.tooDeepToRead disk request.settingsFile = .ok table)
      (named : resolved request table = .ok names)
      (surveyed : surveyRoots roots names (Dump.collector disk) = .ok report) : Reports report

/-- A limit of the runtime: the settings hold an integer with too many digits or
values too deep in each other, or a fault would have to show such a setting. -/
inductive LimitReached : Prop where
  | digits {excess : DigitLimit.Excess}
      (loaded : Settings.load host.tooDeepToRead disk request.settingsFile =
        .error (.digits excess))
  | depth (loaded : Settings.load host.tooDeepToRead disk request.settingsFile = .error .tooDeep)
  | unshowable {fault : Fault} {cause : Setting.Unshowable}
      (raised : Raises request host disk fault)
      (shown : fault.message host = .error cause)

inductive Settles : Except Stop Report → Prop where
  | noRoots (none : GivesRoots request host disk []) : Settles (.error .noRoots)
  | fault {fault : Fault} (raised : Raises request host disk fault) :
      Settles (.error (.fault fault))
  | settings {fault : Settings.LoadFault}
      (failed : Settings.load host.tooDeepToRead disk request.settingsFile = .error fault) :
      Settles (.error (.settings fault))
  | report {report : Report} (reported : Reports request host disk report) : Settles (.ok report)

variable {request host disk}

/-- The roots that are to be surveyed are the roots of the request; that there are
none is found here. -/
theorem roots_of_givesRoots {roots : List Root} (hRoots : GivesRoots request host disk roots) :
    request.roots host disk = if roots.isEmpty then .error .noRoots else .ok roots := by
  unfold Request.roots
  cases hRoots with
  | argument hGiven => simp [hGiven]
  | settings hAbsent hLoaded hParsed =>
      unfold rootSetting at hParsed
      simp [hAbsent, Settings.roots, hLoaded, hParsed]

theorem markerNames_of_load {table : SettingTable}
    (hLoaded : Settings.load host.tooDeepToRead disk request.settingsFile = .ok table) :
    request.markerNames host disk = (resolved request table).mapError (.fault ∘ .settings) := by
  unfold Request.markerNames resolved
  simp [Settings.markers, hLoaded]

/-- Once there are roots and settings, the report is left to the marker names and to
the survey, in this order. -/
theorem report_of_roots {roots : List Root} {table : SettingTable}
    (hRoots : GivesRoots request host disk roots) (hSome : roots ≠ [])
    (hLoaded : Settings.load host.tooDeepToRead disk request.settingsFile = .ok table) :
    request.report host disk =
      ((resolved request table).mapError (.fault ∘ .settings)).bind fun names =>
        (surveyRoots roots names (Dump.collector disk)).mapError (.fault ∘ .survey) := by
  have hEmpty : roots.isEmpty = false := by simpa using hSome
  rw [Request.report, roots_of_givesRoots hRoots, markerNames_of_load hLoaded, hEmpty]
  rfl

/-- Every way to end is the way in which the request ends. -/
theorem Settles.report_eq {ending : Except Stop Report}
    (hSettles : Settles request host disk ending) :
    request.report host disk = ending := by
  cases hSettles with
  | noRoots hNone => simp [Request.report, roots_of_givesRoots hNone]
  | fault hRaised =>
      cases hRaised with
      | roots hAbsent hLoaded hRaised =>
          unfold rootSetting at hRaised
          simp [Request.report, Request.roots, hAbsent, Settings.roots, hLoaded, hRaised]
      | markers hRoots hSome hLoaded hRaised => simp [report_of_roots hRoots hSome hLoaded, hRaised]
      | survey hRoots hSome hLoaded hNamed hRaised =>
          simp [report_of_roots hRoots hSome hLoaded, hNamed, hRaised]
  | settings hFailed =>
      cases hRoot : request.root with
      | none => simp [Request.report, Request.roots, hRoot, Settings.roots, hFailed]
      | some location =>
          simp [Request.report, Request.roots, hRoot, Request.markerNames, Settings.markers,
            hFailed]
  | report hReported =>
      cases hReported with
      | intro hRoots hSome hLoaded hNamed hSurveyed =>
          simp [report_of_roots hRoots hSome hLoaded, hNamed, hSurveyed]

theorem exists_settles_of_roots {roots : List Root} {table : SettingTable}
    (hRoots : GivesRoots request host disk roots)
    (hLoaded : Settings.load host.tooDeepToRead disk request.settingsFile = .ok table) :
    ∃ ending, Settles request host disk ending := by
  by_cases hSome : roots = []
  · subst hSome
    exact ⟨_, .noRoots hRoots⟩
  · cases hNames : resolved request table with
    | error fault => exact ⟨_, .fault (.markers hRoots hSome hLoaded hNames)⟩
    | ok names =>
        cases hSurvey : surveyRoots roots names (Dump.collector disk) with
        | error fault => exact ⟨_, .fault (.survey hRoots hSome hLoaded hNames hSurvey)⟩
        | ok report => exact ⟨_, .report (.intro hRoots hSome hLoaded hNames hSurvey)⟩

variable (request host disk) in
/-- The report of a request is one of the four ways to end. The cases follow the
stages: the settings, the roots, the marker names, the survey. -/
theorem settles_report : Settles request host disk (request.report host disk) := by
  have hEnds : ∃ ending, Settles request host disk ending := by
    cases hLoaded : Settings.load host.tooDeepToRead disk request.settingsFile with
    | error fault => exact ⟨_, .settings hLoaded⟩
    | ok table =>
        cases hRoot : request.root with
        | some location => exact exists_settles_of_roots (.argument hRoot) hLoaded
        | none =>
            cases hParsed : Root.ofSetting (rootSetting table) request.defaultScope with
            | error fault => exact ⟨_, .fault (.roots hRoot hLoaded hParsed)⟩
            | ok roots => exact exists_settles_of_roots (.settings hRoot hLoaded hParsed) hLoaded
  obtain ⟨ending, hSettles⟩ := hEnds
  rwa [hSettles.report_eq]

/-- A request ends in exactly one way, the way in which its report ends. The four
ways are told apart by their result, so each of them is read off the report. -/
theorem settles_iff {ending : Except Stop Report} :
    Settles request host disk ending ↔ request.report host disk = ending := by
  constructor
  · intro hSettles
    exact hSettles.report_eq
  · rintro rfl
    exact settles_report request host disk

theorem givesRoots_nil_iff :
    GivesRoots request host disk [] ↔ request.report host disk = .error .noRoots := by
  rw [← settles_iff]
  constructor
  · exact .noRoots
  · intro hSettles
    cases hSettles with | noRoots hNone => exact hNone

/-- A fault is raised exactly if the report ends with it. -/
theorem raises_iff (fault : Fault) :
    Raises request host disk fault ↔ request.report host disk = .error (.fault fault) := by
  rw [← settles_iff]
  constructor
  · exact .fault
  · intro hSettles
    cases hSettles with | fault hRaised => exact hRaised

theorem load_eq_error_iff (fault : Settings.LoadFault) :
    Settings.load host.tooDeepToRead disk request.settingsFile = .error fault ↔
      request.report host disk = .error (.settings fault) := by
  rw [← settles_iff]
  constructor
  · exact .settings
  · intro hSettles
    cases hSettles with | settings hFailed => exact hFailed

theorem reports_iff (report : Report) :
    Reports request host disk report ↔ request.report host disk = .ok report := by
  rw [← settles_iff]
  constructor
  · exact .report
  · intro hSettles
    cases hSettles with | report hReported => exact hReported

end Stages

/-- What a run that succeeds leaves behind: a line on standard output, or the same
line as the only thing in the output file and no other file changed. -/
inductive Emitted (disk : Disk) (output : Location) (line : String) : Outcome → Prop where
  | standard (target : output.text = "-") :
      Emitted disk output line { exit := .success, stdout := line, disk := disk }
  | file {changed : Disk} {written : List String} (target : output.text ≠ "-")
      (read : changed.readBytes output = .ok (Text.Utf8.encode line))
      (working : changed.working = disk.working)
      (new : changed.tree.get? written = some (.file (Text.Utf8.encode line)))
      (others : ∀ names, names ≠ written → ∀ old,
        disk.tree.get? names = some (.file old) ↔ changed.tree.get? names = some (.file old)) :
      Emitted disk output line { exit := .success, disk := changed }

/-- Where the output can be written at all, the line is written to it and nowhere
else. -/
theorem emitted_emit {host : Host} {disk : Disk} {output : Location}
    (hOutput : output.text = "-" ∨
      ∃ changed, disk.writeFile host.tooDeepToMake output [] = .ok changed)
    (text : String) : Emitted disk output (text ++ "\n") (emit host disk output text) := by
  unfold emit standardOutput
  by_cases hStandard : output.text = "-"
  · simpa [hStandard] using Emitted.standard hStandard
  · obtain ⟨_, hWritable⟩ := hOutput.resolve_left hStandard
    obtain ⟨changed, hChanged⟩ :=
      Disk.exists_writeFile_eq_ok hWritable (Text.Utf8.encode (text ++ "\n"))
    obtain ⟨hRead, hWorking, written, hNew, hOthers⟩ := Disk.writeFile_spec hChanged
    simpa [hStandard, hChanged] using Emitted.file hStandard hRead hWorking hNew hOthers

theorem Emitted.exit_eq {disk : Disk} {output : Location} {line : String} {outcome : Outcome}
    (hEmitted : Emitted disk output line outcome) : outcome.exit = .success := by
  cases hEmitted <;> rfl

/-- Without an escape character nothing starts a control sequence. -/
theorem withoutControlFrom_of_plain {text : List Char} (hPlain : Text.escapeChar ∉ text) :
    Text.withoutControlFrom .none text = text := by
  induction text with
  | nil => rfl
  | cons c rest ih =>
      obtain ⟨hHead, hRest⟩ := not_or.mp (mt List.mem_cons.mpr hPlain)
      simp [Text.withoutControlFrom, Ne.symm hHead, ih hRest]

/-- The words of a fault stand on standard error as they are, on a terminal always and
elsewhere if no control sequence starts in them. -/
theorem standardError_complaint {host : Host} {words : String}
    (hPlain : host.isTerminal = true ∨ Text.escapeChar ∉ words.toList) :
    host.standardError ("apimark: " ++ words ++ "\n") = "apimark: " ++ words ++ "\n" := by
  unfold Host.standardError
  split
  · rfl
  · next hFile =>
      have hWords := hPlain.resolve_left hFile
      have hAll : Text.escapeChar ∉ ("apimark: " ++ words ++ "\n").toList := by
        simpa [Text.escapeChar] using hWords
      rw [Text.withoutControl, withoutControlFrom_of_plain hAll, String.ofList_toList]

/-- A report has lists of texts in an object, so two levels are enough for it. -/
theorem nests_reportJson (room : Nat) (report : Report) :
    Json.Nests (room + 2) (reportJson report) := by
  have hList : ∀ references, Json.Nests (room + 1) (referencesJson references) := by
    intro references
    refine .array ?_
    intro item hItem
    obtain ⟨reference, -, rfl⟩ := List.mem_map.mp hItem
    exact .string room reference.text
  refine .object ?_
  simp [hList]

/-- The settings file can be asked for, be it given or the one of the working
directory. -/
theorem Values.NoNull.settingsFile {values : Values} (hNull : values.NoNull) :
    values.request.settingsFile.hasNull = false := by
  cases hFile : values.option .settings with
  | none =>
      have hDefault : (Settings.fileIn .here).hasNull = false := by decide
      simpa [Values.request, Request.settingsFile, Settings.locate, hFile] using hDefault
  | some word =>
      have hWord := Location.hasNull_ofText (hNull.2 .settings word hFile)
      simpa [Values.request, Request.settingsFile, Settings.locate, hFile] using hWord

/-- Settings that are a text fail to load only where a limit is reached. -/
theorem load_fails_at_limit {tooDeep : List Char → Bool} {disk : Disk} {location : Location}
    (hNull : location.hasNull = false)
    (hText : ∀ bytes, disk.readBytes location = .ok bytes →
      ∃ text, Text.Utf8.decode bytes = .ok text)
    {fault : Settings.LoadFault} (hFault : Settings.load tooDeep disk location = .error fault) :
    (∃ excess, fault = .digits excess) ∨ fault = .tooDeep := by
  unfold Settings.load at hFault
  cases hBytes : disk.readBytes location with
  | error failure =>
      cases failure with
      | nullCharacter => exact (Disk.readBytes_ne_nullCharacter hNull disk hBytes).elim
      | _ => simp [hBytes] at hFault
  | ok bytes =>
      obtain ⟨text, hDecoded⟩ := hText bytes hBytes
      simp only [hBytes, hDecoded, Sequence.mapError_ok, Sequence.bind_eq_bind, Sequence.ok_bind,
        Settings.ofText] at hFault
      split at hFault
      · cases hFault
      · cases hFault
      · next digits _ => exact .inl ⟨.read digits, (Except.error.inj hFault).symm⟩
      · exact .inr (Except.error.inj hFault).symm

/-- How a run has to end, by what its stages come to. -/
structure Answers (request : Request) (host : Host) (disk : Disk) (outcome : Outcome) : Prop where
  /-- There is nothing to survey. -/
  misused : outcome.exit.status = 2 ↔ GivesRoots request host disk []
  untouched : GivesRoots request host disk [] → outcome.stdout = "" ∧ outcome.disk = disk
  /-- A stage raises a fault, and the words for it are the only output. -/
  failed : outcome.exit = .failed ↔
    ∃ fault words, Raises request host disk fault ∧ fault.message host = .ok words
  complaint : ∀ fault words, Raises request host disk fault → fault.message host = .ok words →
    outcome = { exit := .failed
                stderr := host.standardError ("apimark: " ++ words ++ "\n")
                disk := disk }
  verbatim : ∀ fault words, Raises request host disk fault → fault.message host = .ok words →
    host.isTerminal = true ∨ Text.escapeChar ∉ words.toList →
      outcome.stderr = "apimark: " ++ words ++ "\n"
  /-- All stages go well, and their report is the only output. -/
  succeeded : outcome.exit.status = 0 ↔ ∃ report, Reports request host disk report
  payload : ∀ report, Reports request host disk report → ∃ text : String,
    Text.IsAscii text.toList ∧
    (∀ limits : Json.Limits, 2 ≤ limits.containers → Json.read? limits text.toList = some (.object
      [("models", .array (report.models.map fun reference => .string reference.text)),
        ("operations", .array (report.operations.map fun reference => .string reference.text)),
        ("responses", .array (report.responses.map fun reference => .string reference.text))])) ∧
    Emitted disk request.output (text ++ "\n") outcome
  /-- Only a limit makes a run break off. -/
  crashed : (∃ crash, outcome.exit = .crashed crash) ↔ LimitReached request host disk
  unchanged : LimitReached request host disk → outcome.stdout = "" ∧ outcome.disk = disk

/-- In terms of the report, a limit is reached if the settings do not load, or if the
fault cannot be put into words. -/
theorem limitReached_iff {request : Request} {host : Host} {disk : Disk}
    (hLimit : ∀ fault, Settings.load host.tooDeepToRead disk request.settingsFile = .error fault →
      (∃ excess, fault = .digits excess) ∨ fault = .tooDeep) :
    LimitReached request host disk ↔
      (∃ fault, request.report host disk = .error (.settings fault)) ∨
        ∃ fault cause, request.report host disk = .error (.fault fault) ∧
          fault.message host = .error cause := by
  simp only [← load_eq_error_iff, ← raises_iff]
  constructor
  · intro hReached
    cases hReached with
    | digits hLoaded => exact .inl ⟨_, hLoaded⟩
    | depth hLoaded => exact .inl ⟨_, hLoaded⟩
    | unshowable hRaised hShown => exact .inr ⟨_, _, hRaised, hShown⟩
  · rintro (⟨fault, hLoaded⟩ | ⟨fault, cause, hRaised, hShown⟩)
    · obtain ⟨excess, rfl⟩ | rfl := hLimit fault hLoaded
      · exact .digits hLoaded
      · exact .depth hLoaded
    · exact .unshowable hRaised hShown

/-- A report is written in ASCII, and every reader that allows for two levels reads
it back. -/
theorem payload_text (report : Report) :
    Text.IsAscii (reportJson report).text.toList ∧
      ∀ limits : Json.Limits, 2 ≤ limits.containers →
        Json.read? limits (reportJson report).text.toList = some (reportJson report) := by
  rw [Json.text, String.toList_ofList]
  refine ⟨(nests_reportJson 0 report).isAscii_write 0, ?_⟩
  intro limits hRoom
  obtain ⟨room, hContainers⟩ := Nat.exists_eq_add_of_le' hRoom
  have hNests := nests_reportJson room report
  rw [← hContainers] at hNests
  exact hNests.read?_write

/-- Each of the four ways in which the stages can end rules out the other three. -/
theorem answers_run {request : Request} {host : Host} {disk : Disk}
    (hLimit : ∀ fault, Settings.load host.tooDeepToRead disk request.settingsFile = .error fault →
      (∃ excess, fault = .digits excess) ∨ fault = .tooDeep)
    (hOutput : request.output.text = "-" ∨
      ∃ changed, disk.writeFile host.tooDeepToMake request.output [] = .ok changed) :
    Answers request host disk (request.run host disk) := by
  have hReached := limitReached_iff hLimit
  cases hReport : request.report host disk with
  | ok report =>
      have hEmitted := emitted_emit hOutput (reportJson report).text
      have hExit := hEmitted.exit_eq
      obtain ⟨hAscii, hRead⟩ := payload_text report
      rw [Request.run, hReport]
      constructor
      case payload =>
        intro other hOther
        obtain rfl : report = other := by simpa [reports_iff, hReport] using hOther
        exact ⟨_, hAscii, hRead, hEmitted⟩
      all_goals
        simp [givesRoots_nil_iff, raises_iff, reports_iff, hReached, hReport, hExit, Exit.status]
  | error stop =>
      rw [Request.run, hReport]
      cases stop with
      | noRoots =>
          constructor <;>
            simp [givesRoots_nil_iff, raises_iff, reports_iff, hReached, hReport, Exit.status]
      | fault fault =>
          change Answers request host disk (complain host disk fault)
          unfold complain
          cases hWords : fault.message host with
          | ok words =>
              constructor
              case complaint =>
                intro other found hOther hFound
                obtain rfl : fault = other := by simpa [raises_iff, hReport] using hOther
                obtain rfl : words = found := by simpa [hWords] using hFound
                rfl
              case verbatim =>
                intro other found hOther hFound hPlain
                obtain rfl : fault = other := by simpa [raises_iff, hReport] using hOther
                obtain rfl : words = found := by simpa [hWords] using hFound
                exact standardError_complaint hPlain
              all_goals
                simp [givesRoots_nil_iff, raises_iff, reports_iff, hReached, hReport, hWords,
                  Exit.status]
          | error cause =>
              constructor
              case complaint | verbatim =>
                intro other found hOther hFound
                obtain rfl : fault = other := by simpa [raises_iff, hReport] using hOther
                simp [hWords] at hFound
              all_goals
                simp [givesRoots_nil_iff, raises_iff, reports_iff, hReached, hReport, hWords,
                  Exit.status]
      | settings fault =>
          constructor <;>
            simp [givesRoots_nil_iff, raises_iff, reports_iff, hReached, hReport, Exit.status]

/-- For every root and all values of the options that hold no null character there
are words that say them, and whatever the words, the run ends as its stages do:
it is misused exactly when there is nothing to survey, fails with the words of the
fault exactly when a stage raises one, and otherwise writes the report as JSON
to where it is asked for and nowhere else. The settings are to be a text if they
are a file, and the output is to be standard output or a file that can be
written; beyond that only a limit on the settings can make a run break off. -/
theorem discover_ends_as_its_stages_do (values : Values) (host : Host) (disk : Disk)
    (hNull : values.NoNull)
    (hSettings : ∀ bytes, disk.readBytes values.request.settingsFile = .ok bytes →
      ∃ text, Text.Utf8.decode bytes = .ok text)
    (hOutput : values.request.output.text = "-" ∨
      ∃ changed, disk.writeFile host.tooDeepToMake values.request.output [] = .ok changed) :
    (∃ words, values.SpelledBy words) ∧
    ∀ words, values.SpelledBy words → Answers values.request host disk (run words host disk) := by
  refine ⟨values.exists_spelledBy, ?_⟩
  intro words hSpelled
  rw [hSpelled.run_eq hNull]
  have hFile := hNull.settingsFile
  exact answers_run (fun fault hFault => load_fails_at_limit hFile hSettings hFault) hOutput

/-- A host whose standard error is a file, and whose stack is as long as it has to be. -/
def roomyHost : Host where
  wording := fun _ complaints => toString complaints.length ++ " validation errors for SyntaxDump"
  isTerminal := false
  tooDeepToRead := fun _ => false
  tooDeepToShow := fun _ => false
  tooDeepToMake := fun _ _ => false

/-- A disk whose working directory holds nothing but a dump with one function. -/
def routeDisk : Disk where
  tree := .directory [("work", .directory [("d.json", Dump.fileOf Dump.routeDump)])]
  working := ["work"]

/-- The dump as a root, and a file in a directory that is not there yet as output. -/
def routeValues : Values where
  root := some "/work/d.json"
  option := fun option => if option = .output then some "out/report.json" else none

theorem discover_ends_as_its_stages_do_on_a_route :
    ∃ text : String,
      Json.read? Dump.limits text.toList = some (.object [("models", .array []),
        ("operations", .array [.string "crate::api::get"]), ("responses", .array [])]) ∧
      Emitted routeDisk (.ofText "out/report.json") (text ++ "\n")
        (run ["discover", "/work/d.json", "--output", "out/report.json"] roomyHost routeDisk) := by
  have hNull : routeValues.NoNull :=
    ⟨by simp [routeValues], fun option => by cases option <;> simp [routeValues]⟩
  have hSpelled : routeValues.SpelledBy
      ["discover", "/work/d.json", "--output", "out/report.json"] :=
    ⟨⟨["/work/d.json"], [(.output, "out/report.json")], false⟩, rfl, rfl,
      fun option => by cases option <;> rfl⟩
  have hLoaded : Settings.load roomyHost.tooDeepToRead routeDisk routeValues.request.settingsFile =
      .ok [] := rfl
  have hNamed : resolved routeValues.request [] = .ok MarkerNames.default := rfl
  have hText : routeDisk.readText (.ofText "/work/d.json") = .ok (Json.write 0 Dump.routeDump) := by
    decide +kernel
  have hSurvey : surveyRoots [⟨.ofText "/work/d.json", "crate"⟩] MarkerNames.default
      (Dump.collector routeDisk) = .ok ⟨[⟨["crate", "api", "get"]⟩], [], []⟩ := by
    rw [surveyRoots_cons, Dump.surveyRoot_routeDump hText]
    rfl
  have hReports : Reports routeValues.request roomyHost routeDisk
      ⟨[⟨["crate", "api", "get"]⟩], [], []⟩ :=
    .intro (.argument rfl) (by simp) hLoaded hNamed hSurvey
  have hOutput : ∃ changed,
      routeDisk.writeFile roomyHost.tooDeepToMake routeValues.request.output [] = .ok changed := by
    apply Sequence.exists_eq_ok_of_isOk
    decide +kernel
  have hMissing : routeDisk.readBytes routeValues.request.settingsFile = .error .missing := by
    decide +kernel
  obtain ⟨-, hRun⟩ := discover_ends_as_its_stages_do routeValues roomyHost routeDisk hNull
    (fun bytes hBytes => by rw [hMissing] at hBytes; cases hBytes) (.inr hOutput)
  obtain ⟨text, -, hRead, hEmitted⟩ := (hRun _ hSpelled).payload _ hReports
  exact ⟨text, hRead Dump.limits (by decide), hEmitted⟩

/-- A setting `a` with five hundred lists in each other, in ASCII. -/
def deepSettings : List UInt8 :=
  97 :: 61 :: List.replicate 500 91 ++ List.replicate 500 93

/-- A directory without dumps, beside such settings. -/
def deepDisk : Disk where
  tree := .directory [("apimark.toml", .file deepSettings), ("d", .directory [])]

/-- The same host with a stack that ends behind four hundred brackets. -/
def narrowHost : Host :=
  { roomyHost with tooDeepToRead := fun text => 400 < text.count '[' }

/-- Standard error is not always the words of the fault: off a terminal a control
sequence in them is dropped. And a run can break off although nothing is wrong with
its roots, its marker names or its dumps: the settings are a text, but too deep to be
read where the stack ends first. -/
theorem control_sequences_are_dropped_and_deep_settings_break_off :
    (∃ fault words, Raises (Values.request { root := some "\x1b[31mx" }) narrowHost ⟨.empty, []⟩
        fault ∧ fault.message narrowHost = .ok words ∧
      (run ["discover", "\x1b[31mx"] narrowHost ⟨.empty, []⟩).stderr ≠
        "apimark: " ++ words ++ "\n") ∧
    (Text.Utf8.decode deepSettings).isOk = true ∧
    (∀ fault, ¬ Raises (Values.request { root := some "d" }) narrowHost deepDisk fault) ∧
    ¬ GivesRoots (Values.request { root := some "d" }) narrowHost deepDisk [] ∧
    (run ["discover", "d"] narrowHost deepDisk).exit.status = 1 := by
  obtain ⟨fault, hFault⟩ : ∃ fault,
      Settings.load narrowHost.tooDeepToRead deepDisk (Settings.fileIn .here) = .error fault := by
    apply Sequence.exists_eq_error_of_isOk
    decide +kernel
  have hReport : (Values.request { root := some "d" }).report narrowHost deepDisk =
      .error (.settings fault) := (load_eq_error_iff fault).mp hFault
  refine ⟨?_, by decide +kernel, ?_, ?_, by decide +kernel⟩
  · exact ⟨_, _, .survey (.argument rfl) (by simp) (by rfl) (by rfl) (by rfl), rfl,
      by decide +kernel⟩
  · intro other
    simp [raises_iff, hReport]
  · simp [givesRoots_nil_iff, hReport]

end ApiSurvey.Command
