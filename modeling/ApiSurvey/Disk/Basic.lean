import ApiSurvey.FileTree.Basic

/-! Disks: a file tree and the working directory in it. Whatever reads or writes files is a function
of a disk. -/
namespace ApiSurvey

/-- All files, and the names that lead from the top to the working directory. -/
structure Disk where
  tree : FileTree
  working : List String := []

namespace Disk

open FileTree (Failure)

/-- The names that lead from the top to where locations with an anchor start. -/
def start (disk : Disk) : Anchor → List String
  | .relative => disk.working
  | .root => []
  | .doubleRoot => []

/-- Where a location leads to. -/
def arrive (disk : Disk) (location : Location) : Except Failure (List String × FileTree) :=
  if location.hasNull then .error .nullCharacter
  else if FileTree.isLongLocation location then .error .nameTooLong
  else FileTree.follow [] disk.tree (disk.start location.anchor ++ location.parts)

/-- What stands at a location. -/
def locate (disk : Disk) (location : Location) : Except Failure FileTree :=
  (disk.arrive location).map Prod.snd

def readBytes (disk : Disk) (location : Location) : Except Failure (List UInt8) :=
  match disk.locate location with
  | .ok (.file content) => .ok content
  | .ok (.directory _) => .error .isDirectory
  | .error failure => .error failure

end Disk

end ApiSurvey
