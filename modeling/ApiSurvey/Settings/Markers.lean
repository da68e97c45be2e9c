import ApiSurvey.Settings.Fault
import ApiSurvey.Survey.Finding
import ApiSurvey.Text.Blank

/-! Marker names from settings. -/
namespace ApiSurvey

namespace MarkerNames

def functionKey : String := "function"

def modelKey : String := "model"

def responseKey : String := "response"

/-- The names that hold where nothing is set. -/
def default : MarkerNames :=
  ⟨"utoipa", "ToSchema", "ToResponse"⟩

/-- The name under a key: a text that is not blank, trimmed. -/
def name (settings : SettingTable) (key fallback : String) : Except SettingsFault String :=
  match (settings.get? key).getD (.string fallback) with
  | .string text =>
      if (Text.trimmed text).isEmpty then .error (.badMarker key (.string text))
      else .ok (Text.trimmed text)
  | value => .error (.badMarker key value)

/-- The names of a table of settings; the first bad one is reported. -/
def ofSettings (settings : SettingTable) : Except SettingsFault MarkerNames := do
  let function ← name settings functionKey default.function
  let model ← name settings modelKey default.model
  let response ← name settings responseKey default.response
  return ⟨function, model, response⟩

/-- The names that overrides and a table of settings give together. -/
def resolve (overrides settings : SettingTable) : Except SettingsFault MarkerNames :=
  ofSettings (overrides.laidOver settings)

end MarkerNames

end ApiSurvey
