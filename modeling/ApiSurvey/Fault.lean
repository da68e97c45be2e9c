import ApiSurvey.Host
import ApiSurvey.Settings.Fault
import ApiSurvey.Survey.Collector

/-! Everything that ends a survey with a message. -/
namespace ApiSurvey

inductive Fault where
  | settings (fault : SettingsFault)
  | survey (fault : SurveyFault)

/-- The words for a fault, unless they are to show a setting that cannot be shown. -/
def Fault.message (host : Host) : Fault → Except Setting.Unshowable String
  | .settings fault => fault.message host.tooDeepToShow
  | .survey fault => .ok (fault.message host.wording)

end ApiSurvey
