import ApiSurvey.Disk.Basic
import ApiSurvey.Dump.Listing
import ApiSurvey.Dump.Schema
import ApiSurvey.Dump.Source
import ApiSurvey.Survey.Collector
import ApiSurvey.Text.Lines

/-! Collecting source files from the dumps on a disk. -/
namespace ApiSurvey

/-- The text of a file, with every line ending the same. -/
def Disk.readText (disk : Disk) (location : Location) : Except Unreadable (List Char) := do
  let bytes ← (disk.readBytes location).mapError (.access · location)
  let text ← (Text.Utf8.decode bytes).mapError .encoding
  return Text.unifyLines text

namespace Dump

/-- Whether a directory below a root can be listed. It is asked for by the text of the root with the
names behind it, so a dot for the place where one is counts too, and this text is not too long. -/
def isListed (root : Location) (names : List String) : Bool :=
  ("/".intercalate (root.text :: names)).utf8ByteSize ≤ FileTree.longestLocation

/-- The locations of the dumps of a root: the root itself if it is a file, whatever its name, and
else those below it, as far as their directories can be listed. -/
def locations (disk : Disk) (root : Location) : Except Collection.Failure (List Location) :=
  match disk.locate root with
  | .ok (.file _) => .ok [root]
  | .ok directory =>
      .ok ((directory.dumps.filter fun names => isListed root names.dropLast).map root.below)
  | .error .nameTooLong => .error (.access .nameTooLong root)
  | .error _ => .error (.refused ⟨root.text, .notFound⟩)

/-- Why there is no text at a location, as a failure to collect it. -/
def unreadable (location : Location) : Unreadable → Collection.Failure
  | .access .nullCharacter _ => .access .nullCharacter location
  | cause => .refused ⟨location.text, .unreadable cause⟩

def load (disk : Disk) (location : Location) : Except Collection.Failure Dump := do
  let text ← (disk.readText location).mapError (unreadable location)
  (ofText text).mapError fun complaints => .refused ⟨location.text, .invalidDump text complaints⟩

def sources (dump : Dump) (scopeName : String) : List SourceUnit :=
  dump.files.map (·.toUnit scopeName)

/-- The source files of all dumps of a root, in order; the first dump that cannot be loaded ends
the collection. -/
def collect (disk : Disk) (root : Location) (scopeName : String) :
    Except Collection.Failure (List SourceUnit) := do
  let locations ← locations disk root
  let dumps ← locations.mapM (load disk)
  return dumps.flatMap (·.sources scopeName)

/-- The dumps of a disk as a collector. -/
def collector (disk : Disk) : Collector :=
  fun root scopeName => .ofExcept (collect disk root scopeName)

end Dump

end ApiSurvey
