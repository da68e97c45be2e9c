import ApiSurvey.FileTree.Basic

/-! The dumps below a directory, in the order in which they are read. -/
namespace ApiSurvey.FileTree

/-- The ending of dump files. -/
def dumpSuffix : List Char := ".json".toList

def isDumpName (name : String) : Bool :=
  dumpSuffix.isSuffixOf name.toList

/-- Sorts by name, in the order of code points. -/
def sortByName {α : Type} (entries : List (String × α)) : List (String × α) :=
  entries.mergeSort fun first second => first.1 ≤ second.1

/-- The files among the entries of a directory that are dumps. -/
def ownDumps : List (String × FileTree) → List (String × List UInt8)
  | [] => []
  | (name, .file content) :: rest =>
      if isDumpName name then (name, content) :: ownDumps rest else ownDumps rest
  | (_, .directory _) :: rest => ownDumps rest

mutual

/-- The names that lead to the dumps below a place. The dumps of a directory come first, sorted by
name; those below its directories follow, in the order of the directories' names. -/
def dumps : FileTree → List (List String)
  | .file _ => []
  | .directory entries =>
      (sortByName (ownDumps entries)).map (fun (name, _) => [name]) ++
        (sortByName (dumpsBelow entries)).flatMap fun (name, below) => below.map (name :: ·)

/-- The dumps below every entry of a directory; there are none below a file. -/
def dumpsBelow : List (String × FileTree) → List (String × List (List String))
  | [] => []
  | (name, tree) :: rest => (name, dumps tree) :: dumpsBelow rest

end

end ApiSurvey.FileTree
