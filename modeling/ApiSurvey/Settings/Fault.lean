import ApiSurvey.Settings.Display

/-! What can be wrong with settings. -/
namespace ApiSurvey

inductive SettingsFault where
  /-- A marker name that is no text or a blank one. -/
  | badMarker (key : String) (value : Setting)
  /-- An entry of a list of roots that is no text. -/
  | badEntry (value : Setting)
  /-- Roots that are neither a text nor a list. -/
  | badRoots (value : Setting)
  /-- A root without a path. -/
  | noPath (entry : String)
  /-- A root without a scope name. -/
  | noScopeName (entry : String)

/-- The words for a fault, unless they are to show a setting that cannot be shown. `tooDeep` says
which settings go too deep for the host. -/
def SettingsFault.message (tooDeep : Setting → Bool) :
    SettingsFault → Except Setting.Unshowable String
  | .badMarker key value =>
      (value.display tooDeep).map
        (("markers." ++ key ++ " must be a non-empty string, got ") ++ ·)
  | .badEntry value =>
      (value.display tooDeep).map ("discover path entries must be strings, got " ++ ·)
  | .badRoots value =>
      (value.display tooDeep).map ("discover paths must be a string or a list, got " ++ ·)
  | .noPath entry => .ok ("discover path entry " ++ Text.quoted entry ++ " has no path")
  | .noScopeName entry =>
      .ok ("discover path entry " ++ Text.quoted entry ++ " has no namespace root")

end ApiSurvey
