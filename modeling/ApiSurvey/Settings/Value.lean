import ApiSurvey.Keyed
import ApiSurvey.Number.Spelling
import ApiSurvey.Settings.Calendar

/-! Values of settings, and tables of them. -/
namespace ApiSurvey

inductive Setting where
  /-- Nothing is set. No file can say so, only a caller. -/
  | null
  | bool (value : Bool)
  | integer (value : Int)
  | float (value : Binary64)
  | string (text : String)
  | date (day : Date)
  | time (clock : TimeOfDay)
  | moment (day : Date) (clock : TimeOfDay) (offset : Option Offset)
  | list (items : List Setting)
  | table (entries : List (String × Setting))
  deriving Inhabited

/-- Settings by key. The order of the keys is that in which they were first set. -/
abbrev SettingTable := List (String × Setting)

namespace SettingTable

def get? (table : SettingTable) (key : String) : Option Setting :=
  table.lookup key

def set (table : SettingTable) (key : String) (value : Setting) : SettingTable :=
  Keyed.set table key value

/-- Lays settings over others. A key that is set to nothing leaves the one below in place. -/
def laidOver (top below : SettingTable) : SettingTable :=
  top.foldl (fun table (key, value) =>
    match value with
    | .null => table
    | value => table.set key value) below

/-- The table under a key; anything else there is as good as no table. -/
def subtable (table : SettingTable) (key : String) : SettingTable :=
  match table.get? key with
  | some (.table entries) => entries
  | _ => []

end SettingTable

end ApiSurvey
