import ApiSurvey.Proofs.Command.Discover
import ApiSurvey.Proofs.Settings.Roots

/-! Where the root of a run is told. An argument, an entry of the settings with the
name of its scope and one without it can all mean the same root, and then the runs
give the same report. Once there is an argument, what the settings say about roots
has no part in a run. -/
namespace ApiSurvey.Command

/-- The ways in which a request is told a single root. An entry that names the scope
itself leaves no use for the option, whatever that one says. -/
inductive Tells (path scopeName : String) (host : Host) (request : Request) (disk : Disk) :
    Prop where
  | argument (root : request.root = some (.ofText path))
      (scope : request.scopeName = some scopeName)
  | entry {table : SettingTable} (absent : request.root = none)
      (loaded : Settings.load host.tooDeepToRead disk request.settingsFile = .ok table)
      (held : Root.OneText (Root.fromEntry path scopeName) (rootSetting table))
  | entryAndOption {table : SettingTable} (absent : request.root = none)
      (scope : request.scopeName = some scopeName)
      (loaded : Settings.load host.tooDeepToRead disk request.settingsFile = .ok table)
      (held : Root.OneText path (rootSetting table))

/-- Two requests, each on its own disk, that look for the same markers and find the
same dumps at a root. Their settings may say anything about roots. -/
structure Alike (root : Root) (host : Host) (request : Request) (disk : Disk) (other : Request)
    (elsewhere : Disk) : Prop where
  overrides : request.markers = other.markers
  markers : Settings.markers host.tooDeepToRead disk request.settingsFile =
    Settings.markers host.tooDeepToRead elsewhere other.settingsFile
  dumps : Dump.collect disk root.location root.scopeName =
    Dump.collect elsewhere root.location root.scopeName

/-- Only an empty name of the scope would be passed over. -/
theorem defaultScope_of_some {request : Request} {scopeName : String}
    (hScope : request.scopeName = some scopeName) (hSome : scopeName ≠ "") :
    request.defaultScope = scopeName := by
  simp [Request.defaultScope, hScope, hSome]

/-- All ways to tell a root give the roots of the request as that one. -/
theorem givesRoots_of_tells {path scopeName : String} (hPath : Root.PlainPath path)
    (hScope : Root.Plain scopeName) {host : Host} {request : Request} {disk : Disk}
    (hTells : Tells path scopeName host request disk) :
    GivesRoots request host disk [⟨.ofText path, scopeName⟩] := by
  cases hTells with
  | argument hRoot hOption =>
      have hDefault := defaultScope_of_some hOption hScope.nonempty
      exact hDefault ▸ .argument hRoot
  | entry hAbsent hLoaded hHeld =>
      refine .settings hAbsent hLoaded ?_
      rw [Root.ofSetting_of_oneText (hPath.fromEntry hScope) hHeld,
        Root.ofEntry_fromEntry hPath hScope]
      rfl
  | entryAndOption hAbsent hOption hLoaded hHeld =>
      refine .settings hAbsent hLoaded ?_
      rw [defaultScope_of_some hOption hScope.nonempty,
        Root.ofSetting_of_oneText hPath.toPlain hHeld, Root.ofEntry_path hPath hScope.nonempty]
      rfl

/-- After the roots a run reads the marker names and the dumps, and nothing else. -/
theorem report_eq_of_alike {root : Root} {host : Host} {request other : Request}
    {disk elsewhere : Disk} (hRoots : request.roots host disk = .ok [root])
    (hOther : other.roots host elsewhere = .ok [root])
    (hAlike : Alike root host request disk other elsewhere) :
    request.report host disk = other.report host elsewhere := by
  have hNames : request.markerNames host disk = other.markerNames host elsewhere := by
    rw [Request.markerNames, Request.markerNames, hAlike.markers, hAlike.overrides]
  have hSurvey : ∀ names, surveyRoots [root] names (Dump.collector disk) =
      surveyRoots [root] names (Dump.collector elsewhere) := by
    refine surveyRoots_congr ?_
    intro member hMember
    obtain rfl := List.mem_singleton.mp hMember
    exact congrArg Collection.ofExcept hAlike.dumps
  simp only [Request.report, hRoots, hOther, hNames, Sequence.bind_eq_bind, Sequence.ok_bind,
    hSurvey]

/-- A root is the same whether an argument or the settings tell it, with the name of
its scope in the entry or as an option, and the runs then give the same report or
fail alike. Where there is an argument, two runs that differ in what the settings
say about roots have the same roots and give the same report, too. -/
theorem argument_and_settings_tell_one_root {path scopeName : String}
    (hPath : Root.PlainPath path) (hScope : Root.Plain scopeName) (host : Host) :
    (∀ request disk, Tells path scopeName host request disk →
      request.roots host disk = .ok [⟨.ofText path, scopeName⟩]) ∧
    (∀ request disk other elsewhere, Tells path scopeName host request disk →
      Tells path scopeName host other elsewhere →
      Alike ⟨.ofText path, scopeName⟩ host request disk other elsewhere →
        request.report host disk = other.report host elsewhere) ∧
    (∀ location (request : Request) disk (other : Request) elsewhere,
      request.root = some location → other.root = some location →
      request.scopeName = other.scopeName →
        request.roots host disk = other.roots host elsewhere ∧
        (Alike ⟨location, request.defaultScope⟩ host request disk other elsewhere →
          request.report host disk = other.report host elsewhere)) := by
  have hRoots : ∀ request disk, Tells path scopeName host request disk →
      request.roots host disk = .ok [⟨.ofText path, scopeName⟩] :=
    fun request disk hTells => roots_of_givesRoots (givesRoots_of_tells hPath hScope hTells)
  refine ⟨hRoots, ?_, ?_⟩
  · intro request disk other elsewhere hTells hOther hAlike
    exact report_eq_of_alike (hRoots request disk hTells) (hRoots other elsewhere hOther) hAlike
  · intro location request disk other elsewhere hRoot hOther hOption
    have hGiven : request.roots host disk = .ok [⟨location, request.defaultScope⟩] :=
      roots_of_givesRoots (.argument hRoot)
    have hSame : other.roots host elsewhere = .ok [⟨location, request.defaultScope⟩] := by
      rw [Request.defaultScope, hOption]
      exact roots_of_givesRoots (.argument hOther)
    exact ⟨hGiven.trans hSame.symm, report_eq_of_alike hGiven hSame⟩

/-- The text that a settings file has for roots, where it is a single one. -/
def rootText? (tooDeep : List Char → Bool) (disk : Disk) (file : Location) : Option String :=
  match (Settings.load tooDeep disk file).map rootSetting with
  | .ok (.string text) => some text
  | .ok (.list [.string text]) => some text
  | _ => none

/-- A text that is found in a settings file is there alone or as the only item of a
list. -/
theorem oneText_of_rootText? {tooDeep : List Char → Bool} {disk : Disk} {file : Location}
    {text : String} (hText : rootText? tooDeep disk file = some text) :
    ∃ table, Settings.load tooDeep disk file = .ok table ∧
      Root.OneText text (rootSetting table) := by
  unfold rootText? at hText
  cases hLoad : Settings.load tooDeep disk file with
  | error fault => simp [hLoad] at hText
  | ok table =>
      rw [hLoad, Sequence.map_ok] at hText
      refine ⟨table, rfl, ?_⟩
      generalize rootSetting table = setting at hText ⊢
      split at hText
      · next hOne =>
          cases hOne
          cases hText
          exact .alone
      · next hOne =>
          cases hOne
          cases hText
          exact .listed
      · cases hText

/-- A directory without dumps, and two settings files in ASCII that have it for a
root. One of them names the scope, too. -/
def tellingDisk : Disk where
  tree :=
    let ascii (text : String) : List UInt8 := text.toList.map fun c => c.toNat.toUInt8
    .directory [("my fromage", .directory []),
      ("a.toml", .file (ascii "discover.paths = \"my fromage from api from here\"")),
      ("b.toml", .file (ascii "discover.paths = [\"my fromage\"]"))]

def argumentRequest : Request where
  root := some (.ofText "my fromage")
  scopeName := some "api from here"
  output := .ofText "-"

def entryRequest : Request where
  scopeName := some "other"
  settings := some (.ofText "a.toml")
  output := .ofText "-"

def optionRequest : Request where
  scopeName := some "api from here"
  settings := some (.ofText "b.toml")
  output := .ofText "-"

theorem argument_and_settings_tell_one_root_with_blanks :
    argumentRequest.roots roomyHost tellingDisk = .ok [⟨.ofText "my fromage", "api from here"⟩] ∧
    argumentRequest.report roomyHost tellingDisk = entryRequest.report roomyHost tellingDisk ∧
    argumentRequest.report roomyHost tellingDisk = optionRequest.report roomyHost tellingDisk := by
  have hPath : Root.PlainPath "my fromage" := ⟨⟨by decide, by decide, by decide⟩, by decide +kernel⟩
  have hScope : Root.Plain "api from here" := ⟨by decide, by decide, by decide⟩
  have hArgument : Tells "my fromage" "api from here" roomyHost argumentRequest tellingDisk :=
    .argument rfl rfl
  have hEntry : Tells "my fromage" "api from here" roomyHost entryRequest tellingDisk := by
    have hText : rootText? roomyHost.tooDeepToRead tellingDisk entryRequest.settingsFile =
        some (Root.fromEntry "my fromage" "api from here") := by decide +kernel
    obtain ⟨table, hLoaded, hHeld⟩ := oneText_of_rootText? hText
    exact .entry rfl hLoaded hHeld
  have hOption : Tells "my fromage" "api from here" roomyHost optionRequest tellingDisk := by
    have hText : rootText? roomyHost.tooDeepToRead tellingDisk optionRequest.settingsFile =
        some "my fromage" := by
      decide +kernel
    obtain ⟨table, hLoaded, hHeld⟩ := oneText_of_rootText? hText
    exact .entryAndOption rfl rfl hLoaded hHeld
  have hMarkers : ∀ request ∈ [argumentRequest, entryRequest, optionRequest],
      Settings.markers roomyHost.tooDeepToRead tellingDisk request.settingsFile = .ok [] := by
    have hEmpty : ∀ request ∈ [argumentRequest, entryRequest, optionRequest],
        (Settings.markers roomyHost.tooDeepToRead tellingDisk request.settingsFile).map
          List.isEmpty = .ok true := by
      decide +kernel
    intro request hRequest
    obtain ⟨table, hTable, hNil⟩ := (Sequence.map_eq_ok_iff _ _ _).mp (hEmpty request hRequest)
    rw [hTable, List.isEmpty_iff.mp hNil]
  obtain ⟨hRoots, hReports, -⟩ := argument_and_settings_tell_one_root hPath hScope roomyHost
  refine ⟨hRoots _ _ hArgument, hReports _ _ _ _ hArgument hEntry ?_,
    hReports _ _ _ _ hArgument hOption ?_⟩
  · exact ⟨rfl, by rw [hMarkers _ (by simp), hMarkers _ (by simp)], rfl⟩
  · exact ⟨rfl, by rw [hMarkers _ (by simp), hMarkers _ (by simp)], rfl⟩

end ApiSurvey.Command
