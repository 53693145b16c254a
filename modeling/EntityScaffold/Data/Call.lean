import EntityScaffold.Data.Datum

/- Days, moments and lengths of time as messages show them: as the calls that make them. -/

namespace EntityScaffold.Data

/-- A call that makes a value of a date, with its arguments. -/
def call (maker : String) (arguments : List Text) : Text :=
  "datetime.".toList ++ maker.toList ++ '(' :: Text.joinWith ", ".toList arguments ++ [')']

/-- A length of time as a call that makes it: whole days, rounded down, and the seconds of a day. -/
def lengthCall (seconds : Int) : Text :=
  let part (name : String) (n : Int) : List Text := if n = 0 then [] else [name.toList ++ '=' :: Text.ofInt n]
  let parts := part "days" (seconds / 86400) ++ part "seconds" (seconds % 86400)
  call "timedelta" (if parts.isEmpty then [['0']] else parts)

def zoneCall (ahead : Int) : Text :=
  if ahead = 0 then "datetime.timezone.utc".toList else call "timezone" [lengthCall ahead]

def dayParts (d : Day) : List Text := [Text.ofNat d.year, Text.ofNat d.month, Text.ofNat d.day]

/-- A moment as a call that makes it; seconds that are zero are left out. -/
def momentCall (m : Moment) : Text :=
  let fraction := if m.microsecond = 0 then [] else [Text.ofNat m.microsecond]
  let second := if m.second = 0 && m.microsecond = 0 then [] else [Text.ofNat m.second]
  let zone := m.offset.toList.map fun ahead => "tzinfo=".toList ++ zoneCall ahead
  call "datetime" (dayParts m.day ++ [Text.ofNat m.hour, Text.ofNat m.minute] ++ second ++ fraction ++ zone)

end EntityScaffold.Data
