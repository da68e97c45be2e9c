import ApiSurvey.Location
import ApiSurvey.Survey.Reference

/-! The scope that a source file stands for, read off its place in the source tree:
`./src/routes/user.rs` below the root `crate` stands for `crate::routes::user`. -/
namespace ApiSurvey.FileScope

def extension : List Char := ['.', 'r', 's']

/-- The directory that holds the sources; what leads to it is no part of a scope. -/
def sourceDirectory : String := "src"

/-- A file of one of these names stands for the directory that it is in. -/
def rootStems : List String := ["mod", "lib", "main"]

def withoutExtension (file : List Char) : List Char :=
  if extension.isSuffixOf file then file.take (file.length - extension.length) else file

/-- Both kinds of slashes divide the parts of a file's place. -/
def forwardSlashes (file : List Char) : List Char :=
  file.map fun c => if c == '\\' then '/' else c

/-- The parts of a file's place, without empty ones and single dots. -/
def parts (file : String) : List String :=
  Location.partsOf (withoutExtension (forwardSlashes file.toList))

/-- A root file stands for its directory. -/
def withoutRootStem (parts : List String) : List String :=
  if rootStems.contains (parts.getLastD "") then parts.dropLast else parts

/-- The parts below the first source directory, or all of them if there is none. -/
def belowSource (parts : List String) : List String :=
  if parts.contains sourceDirectory then (parts.dropWhile (· ≠ sourceDirectory)).tail else parts

/-- The module name of a part, in which a dash cannot stand. -/
def moduleName (part : String) : String :=
  String.ofList (part.toList.map fun c => if c == '-' then '_' else c)

/-- The scope of a file below a root name. -/
def ofFile (root file : String) : Scope :=
  root :: (belowSource (withoutRootStem (parts file))).map moduleName

end ApiSurvey.FileScope
