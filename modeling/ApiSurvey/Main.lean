import ApiSurvey.Command.Discover

/-! The command line. It takes in what a request can ask for as a disk, runs the command on it, and
writes back what the run changed. -/
namespace ApiSurvey

/-- An entry of a directory with everything below it. Only regular files and directories count. -/
partial def snapshotEntry (found : IO.FS.DirEntry) : IO (Option (String × FileTree)) := do
  match (← found.path.symlinkMetadata).type with
  | .file =>
      let bytes ← IO.FS.readBinFile found.path
      return some (found.fileName, .file bytes.toList)
  | .dir =>
      let mut entries := []
      for inner in ← found.path.readDir do
        if let some child ← snapshotEntry inner then
          entries := child :: entries
      return some (found.fileName, .directory entries)
  | _ => return none

def pathOf (names : List String) : String :=
  "/" ++ "/".intercalate names

/-- What stands at the end of names. Of a directory only the outermost level is read, without what
is in it, unless everything `below` is asked for. -/
def snapshotAt (below : Bool) (names : List String) : IO (Option FileTree) := do
  let place : IO.FS.DirEntry := ⟨pathOf names.dropLast, names.getLastD "."⟩
  let path := place.path
  if ← path.isDir then
    let mut entries := []
    if below then
      for found in ← path.readDir do
        if let some child ← snapshotEntry found then
          entries := child :: entries
    return some (.directory entries)
  else if ← path.pathExists then
    return some (.file (← IO.FS.readBinFile path).toList)
  else return none

/-- Takes in what stands on the way to a location, and at its end with everything below it if that
is asked for. -/
def takeIn (below : Bool) (disk : Disk) (location : Location) : IO Disk := do
  let mut disk := disk
  let mut names := []
  for part in disk.start location.anchor ++ location.parts do
    names := if part == FileTree.parentName then names.dropLast else names ++ [part]
    if (disk.tree.get? names).isNone then
      if let some found ← snapshotAt false names then
        disk := disk.put names found
  if below then
    if let some found ← snapshotAt true names then
      disk := disk.put names found
  return disk

/-- The request of a command line, if there is one. -/
def requestOf? (words : List String) : Option Command.Request :=
  match Command.invocation? words with
  | some (.discover arguments) => Command.Request.ofArguments? arguments
  | _ => none

/-- The disk with nothing on it but what a request can ask for: the settings, its roots or those of
the settings, and the way to the output. -/
def snapshot (host : Host) (request : Command.Request) : IO Disk := do
  let working := (← IO.currentDir).components.filter (!·.isEmpty)
  let mut disk := ⟨FileTree.empty.insert working .empty, working⟩
  disk ← takeIn false disk request.settingsFile
  if let .ok roots := request.roots host disk then
    for root in roots do
      disk ← takeIn true disk root.location
  takeIn false disk request.output

/-- Writes a file whose names start at the top of the disk. -/
def store (names : List String) (content : List UInt8) : IO Unit := do
  IO.FS.createDirAll (pathOf names.dropLast)
  IO.FS.writeBinFile (pathOf names) ⟨content.toArray⟩

/-- A place as the steps that lead to it. -/
def placeText (place : List Dump.Step) : String :=
  ".".intercalate <| place.map fun
    | .key name => name
    | .index position => toString position

/-- What is wrong at a place, in a few words. -/
def causeText (cause : Dump.Complaint.Cause) : String :=
  match cause with
  | .malformed => "no JSON"
  | .missing => "missing"
  | .notString => "no string"
  | .notList => "no list"
  | .notObject => "no object"
  | cause => cause.rule?.getD ""

/-- A host with a stack without end, and with its own words for complaints. -/
def standardHost : IO Host := do
  return {
    wording := fun _ complaints => ", ".intercalate <|
      complaints.map fun complaint =>
        placeText complaint.place ++ ": " ++ causeText complaint.cause
    isTerminal := ← (← IO.getStderr).isTty
    tooDeepToRead := fun _ => false
    tooDeepToShow := fun _ => false
    tooDeepToMake := fun _ _ => false }

/-- The words for a run that breaks off. -/
def Command.Crash.message : Command.Crash → String
  | .settings fault => fault.message
  | .unshowable cause => cause.message
  | .output (.access .isDirectory) => "the output is a directory"
  | .output (.access .notDirectory) => "a file stands on the way to the output"
  | .output (.access .nameTooLong) => "the name of the output is too long"
  | .output (.access _) => "the output cannot be written"
  | .output .alreadyThere => "the directory of the output is a file"
  | .output .tooDeep => "the output lies too deep"

end ApiSurvey

open ApiSurvey

/-- Runs the command on what it can ask for. -/
def main (words : List String) : IO UInt32 := do
  let host ← standardHost
  let before ← match requestOf? words with
    | some request => snapshot host request
    | none => pure { tree := .empty }
  let outcome := Command.run words host before
  for (names, content) in before.tree.changedFiles outcome.disk.tree do
    store names content
  (← IO.getStdout).putStr outcome.stdout
  (← IO.getStderr).putStr outcome.stderr
  if let .crashed crash := outcome.exit then
    (← IO.getStderr).putStrLn crash.message
  return outcome.exit.status.toUInt32
