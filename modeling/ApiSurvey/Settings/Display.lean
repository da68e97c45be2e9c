import ApiSurvey.Number.DigitLimit
import ApiSurvey.Settings.Value
import ApiSurvey.Text.Quoted

/-! The text of a setting, as complaints show it. -/
namespace ApiSurvey

def commaNumbers (numbers : List Nat) : String :=
  ", ".intercalate (numbers.map toString)

/-- An offset is shown in seconds of a day, and a negative one as what is left of the day before. -/
def Offset.display (offset : Offset) : String :=
  let seconds := offset.minutes * 60
  if seconds == 0 then "datetime.timezone.utc"
  else
    let delta :=
      if seconds < 0 then "days=-1, seconds=" ++ toString (86400 + seconds)
      else "seconds=" ++ toString seconds
    "datetime.timezone(datetime.timedelta(" ++ delta ++ "))"

namespace Setting

inductive Unshowable where
  /-- An integer in it has too many digits. -/
  | digits (excess : DigitLimit.Excess)
  /-- Values in it stand in each other more deeply than the host can follow. -/
  | tooDeep
  deriving DecidableEq, Repr

def Unshowable.message : Unshowable → String
  | .digits excess => excess.message
  | .tooDeep => "maximum recursion depth exceeded while getting the repr of an object"

def displayInteger (value : Int) : Except Unshowable String :=
  if DigitLimit.isExceededBy value then .error (.digits .written) else .ok (toString value)

mutual

/-- The text of a setting. An integer that cannot be written is found in the order of the text. -/
def textOf : Setting → Except Unshowable String
  | .null => .ok "None"
  | .bool true => .ok "True"
  | .bool false => .ok "False"
  | .integer value => displayInteger value
  | .float value => .ok value.text
  | .string text => .ok (Text.quoted text)
  | .date ⟨year, month, day⟩ => .ok ("datetime.date(" ++ commaNumbers [year, month, day] ++ ")")
  | .time clock => .ok ("datetime.time(" ++ commaNumbers clock.numbers ++ ")")
  | .moment ⟨year, month, day⟩ clock offset =>
      let zone := match offset with
        | none => ""
        | some offset => ", tzinfo=" ++ offset.display
      .ok ("datetime.datetime(" ++ commaNumbers ([year, month, day] ++ clock.numbers) ++ zone ++
        ")")
  | .list items => (textsOf items).map fun texts => "[" ++ ", ".intercalate texts ++ "]"
  | .table entries =>
      (entryTextsOf entries).map fun texts => "\x7b" ++ ", ".intercalate texts ++ "\x7d"

def textsOf : List Setting → Except Unshowable (List String)
  | [] => .ok []
  | item :: items => (textOf item).bind fun text => (textsOf items).map (text :: ·)

def entryTextsOf : List (String × Setting) → Except Unshowable (List String)
  | [] => .ok []
  | (key, value) :: entries =>
      (textOf value).bind fun text =>
        (entryTextsOf entries).map ((Text.quoted key ++ ": " ++ text) :: ·)

end

/-- A setting as it is shown. `tooDeep` says in which settings values stand in each other more
deeply than the host can follow. -/
def display (tooDeep : Setting → Bool) (setting : Setting) : Except Unshowable String :=
  if tooDeep setting then .error .tooDeep else setting.textOf

end Setting

end ApiSurvey
