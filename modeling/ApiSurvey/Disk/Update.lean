import ApiSurvey.Disk.Basic
import ApiSurvey.FileTree.Update

/-! Writing files to a disk. -/
namespace ApiSurvey.Disk

open FileTree (Failure)

inductive WriteFailure where
  /-- The system refuses the location of the file or of a directory on the way to it. -/
  | access (failure : Failure)
  /-- A file stands where a directory is to be made. -/
  | alreadyThere
  /-- More directories would have to be made than the host can make for one file. -/
  | tooDeep
  deriving DecidableEq, Repr

/-- What a location names in the directory that it leads to: the names that lead to the directory,
the last name, and what stands there. A location that ends in no name of its own, but in the
directory itself or the one above, names nothing. -/
structure Target where
  place : List String
  name : String
  content : Option FileTree

/-- The target of a location. -/
def target (disk : Disk) (location : Location) : Except Failure (Option Target) := do
  if location.hasNull then throw .nullCharacter
  if FileTree.isLongLocation location then throw .nameTooLong
  match location.parts.getLast? with
  | none => return none
  | some name =>
      let (place, around) ← disk.arrive location.parent
      match around with
      | .file _ => throw .notDirectory
      | .directory entries =>
          if name == FileTree.parentName then return none
          if FileTree.isLongName name then throw .nameTooLong
          return some ⟨place, name, FileTree.child? entries name⟩

/-- Puts something at the end of plain names that start at the top. -/
def put (disk : Disk) (names : List String) (new : FileTree) : Disk :=
  { disk with tree := disk.tree.insert names new }

/-- Makes one directory. Nothing may be there before, but the directory around it must be. -/
def makeDirectory (disk : Disk) (location : Location) : Except WriteFailure Disk := do
  match ← (disk.target location).mapError .access with
  | some ⟨place, name, none⟩ => return disk.put (place ++ [name]) .empty
  | _ => throw .alreadyThere

/-- Makes one directory, unless it is there already. -/
def ensureOne (disk : Disk) (location : Location) : Except WriteFailure Disk :=
  match disk.makeDirectory location, disk.locate location with
  | .ok made, _ => .ok made
  | .error _, .ok (.directory _) => .ok disk
  | .error failure, _ => .error failure

/-- Makes a directory and those around it that are missing. Every round goes up by one name. -/
def makeDirectoriesFrom (disk : Disk) : (rounds : Nat) → Location → Except WriteFailure Disk
  | 0, location => disk.ensureOne location
  | rounds + 1, location =>
      match disk.ensureOne location with
      | .error (.access .missing) => do
          let made ← disk.makeDirectoriesFrom rounds location.parent
          made.ensureOne location
      | answer => answer

/-- Makes a directory and those around it that are missing. No directory is around the outermost
place, so there are as many rounds as the location has names. -/
def makeDirectories (disk : Disk) (location : Location) : Except WriteFailure Disk :=
  disk.makeDirectoriesFrom location.parts.length location

/-- Writes a file in a directory that is there. -/
def replaceFile (disk : Disk) (location : Location) (content : List UInt8) :
    Except WriteFailure Disk := do
  match ← (disk.target location).mapError .access with
  | none => throw (.access .isDirectory)
  | some ⟨_, _, some (.directory _)⟩ => throw (.access .isDirectory)
  | some ⟨place, name, _⟩ => return disk.put (place ++ [name]) (.file content)

/-- Writes a file and makes the directories on the way to it. `tooDeep` says whether these are more
than the host can make. -/
def writeFile (tooDeep : Disk → Location → Bool) (disk : Disk) (location : Location)
    (content : List UInt8) : Except WriteFailure Disk :=
  if tooDeep disk location then .error .tooDeep
  else do
    let made ← disk.makeDirectories location.parent
    made.replaceFile location content

end ApiSurvey.Disk
