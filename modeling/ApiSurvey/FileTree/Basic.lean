import ApiSurvey.Location
import ApiSurvey.Text.Quoted

/-! File trees: regular files and directories, as one value. -/
namespace ApiSurvey

/-- A file or a directory. The order of a directory's entries has no meaning. -/
inductive FileTree where
  | file (content : List UInt8)
  | directory (entries : List (String × FileTree))
  deriving Inhabited

inductive FileTree.Failure where
  /-- A name on the way is missing. -/
  | missing
  /-- A file stands where the way goes on. -/
  | notDirectory
  /-- The location is a directory. -/
  | isDirectory
  /-- The location, or a name on the way, is longer than any that can be there. -/
  | nameTooLong
  /-- The location holds a null character, so it cannot even be asked for. -/
  | nullCharacter
  deriving DecidableEq, Repr

/-- The system's words for a failure at a location. -/
def FileTree.Failure.message (failure : FileTree.Failure) (location : Location) : String :=
  match failure with
  | .missing => "[Errno 2] No such file or directory: " ++ Text.quoted location.text
  | .notDirectory => "[Errno 20] Not a directory: " ++ Text.quoted location.text
  | .isDirectory => "[Errno 21] Is a directory: " ++ Text.quoted location.text
  | .nameTooLong => "[Errno 36] File name too long: " ++ Text.quoted location.text
  | .nullCharacter => "embedded null byte"

namespace FileTree

def empty : FileTree :=
  .directory []

/-- The name of the directory above. -/
def parentName : String := ".."

def child? (entries : List (String × FileTree)) (name : String) : Option FileTree :=
  entries.lookup name

/-- A name has at most so many bytes. -/
def longestName : Nat := 255

/-- The text of a location has at most so many bytes. -/
def longestLocation : Nat := 4095

/-- Whether a name is too long for a file or a directory. -/
def isLongName (name : String) : Bool :=
  name.utf8ByteSize > longestName

/-- Whether a location is too long to be asked for, whatever is there. -/
def isLongLocation (location : Location) : Bool :=
  location.text.utf8ByteSize > longestLocation

/-- Follows names from a place. `way` are the names that lead to the place and the directories that
they were looked up in, the innermost first. The answer is the names that lead to where one
arrives, with no way upwards in them, and what stands there. The directory above the outermost one
is that one itself. -/
def follow (way : List (String × FileTree)) (place : FileTree) :
    List String → Except Failure (List String × FileTree)
  | [] => .ok ((way.map Prod.fst).reverse, place)
  | name :: names =>
      match place with
      | .file _ => .error .notDirectory
      | .directory entries =>
          if name == parentName then
            match way with
            | [] => follow [] place names
            | (_, parent) :: way => follow way parent names
          else if isLongName name then .error .nameTooLong
          else
            match child? entries name with
            | none => .error .missing
            | some next => follow ((name, place) :: way) next names

/-- What stands at the end of plain names, with no way upwards. -/
def get? (tree : FileTree) : List String → Option FileTree
  | [] => some tree
  | name :: names =>
      match tree with
      | .file _ => none
      | .directory entries => (child? entries name).bind (get? · names)

mutual

/-- All files of a tree with the names that lead to them. -/
def files : FileTree → List (List String × List UInt8)
  | .file content => [([], content)]
  | .directory entries => filesOfEntries entries

def filesOfEntries : List (String × FileTree) → List (List String × List UInt8)
  | [] => []
  | (name, tree) :: rest =>
      (files tree).map (fun (names, content) => (name :: names, content)) ++ filesOfEntries rest

end

end FileTree

end ApiSurvey
