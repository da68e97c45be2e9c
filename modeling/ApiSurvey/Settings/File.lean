import ApiSurvey.Disk.Basic
import ApiSurvey.Settings.Value
import ApiSurvey.Text.Lines
import ApiSurvey.Text.Utf8
import ApiSurvey.Toml.Document

/-! The settings file. -/
namespace ApiSurvey.Settings

def fileName : String := "apimark.toml"

def fileIn (directory : Location) : Location :=
  directory.below [fileName]

/-- The settings file that counts: the one that is given, and else that of a directory, which is
the working directory if none is given. -/
def locate (directory file : Option Location) : Location :=
  file.getD (fileIn (directory.getD .here))

inductive LoadFault where
  /-- The file is no text. -/
  | encoding (fault : Text.Utf8.Fault)
  /-- An integer in the file has too many digits. -/
  | digits (excess : DigitLimit.Excess)
  /-- Values in the file stand in each other more deeply than the host can follow. -/
  | tooDeep
  /-- The location of the file holds a null character. -/
  | nullCharacter (location : Location)
  deriving DecidableEq, Repr

def LoadFault.message : LoadFault → String
  | .encoding fault => fault.message
  | .digits excess => excess.message
  | .tooDeep => "maximum recursion depth exceeded"
  | .nullCharacter location => FileTree.Failure.message .nullCharacter location

/-- The settings of a text. One that is no document has none. `tooDeep` says which texts go too deep
for the host. -/
def ofText (tooDeep : List Char → Bool) (text : List Char) : Except LoadFault SettingTable :=
  match Toml.read tooDeep text with
  | .ok table => .ok table
  | .error .malformed => .ok []
  | .error (.longInteger digits) => .error (.digits (.read digits))
  | .error .tooDeep => .error .tooDeep

/-- The settings of a file. A file that is missing has none. -/
def load (tooDeep : List Char → Bool) (disk : Disk) (location : Location) :
    Except LoadFault SettingTable :=
  match disk.readBytes location with
  | .error .nullCharacter => .error (.nullCharacter location)
  | .error _ => .ok []
  | .ok bytes => do
      let text ← (Text.Utf8.decode bytes).mapError .encoding
      ofText tooDeep (Text.unifyLines text)

def markerSection : String := "markers"

def rootSection : String := "discover"

def rootsKey : String := "paths"

/-- The table of the marker names in a settings file. -/
def markers (tooDeep : List Char → Bool) (disk : Disk) (location : Location) :
    Except LoadFault SettingTable :=
  (load tooDeep disk location).map (·.subtable markerSection)

/-- The table of the roots in a settings file. -/
def roots (tooDeep : List Char → Bool) (disk : Disk) (location : Location) :
    Except LoadFault SettingTable :=
  (load tooDeep disk location).map (·.subtable rootSection)

/-- The setting that lists the roots; nothing if it is missing. -/
def rootsOf (table : SettingTable) : Setting :=
  (table.get? rootsKey).getD .null

end ApiSurvey.Settings
