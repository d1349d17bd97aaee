import FleetHealth.Number.Numeral
import FleetHealth.Text.Blank

/-! # Uptime and version texts -/
namespace FleetHealth

open Number Text

/-- Days, hours and minutes without zero units in front; seconds only below a minute. -/
def uptimeText (seconds : Nat) : String :=
  let days := seconds / 86400
  let hours := seconds % 86400 / 3600
  let minutes := seconds % 3600 / 60
  String.ofList (
    if 0 < days then
      decimal days ++ 'd' :: ' ' :: (decimal hours ++ 'h' :: ' ' :: (decimal minutes ++ ['m']))
    else if 0 < hours then decimal hours ++ 'h' :: ' ' :: (decimal minutes ++ ['m'])
    else if 0 < minutes then decimal minutes ++ ['m']
    else decimal seconds ++ ['s'])

/-- Version and commit of a text `version-commit`. A version has no dash in it. -/
def splitVersion (label : String) : String × String :=
  match cutFirst '-' label.toList with
  | some (version, commit) => (String.ofList version, String.ofList commit)
  | none => (label, "")

end FleetHealth
