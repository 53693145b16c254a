import EntityScaffold.Data.Call
import EntityScaffold.Yaml.Fault
import EntityScaffold.Yaml.Word

/- Days and moments: how they are spelled, and the values they have. -/

namespace EntityScaffold.Yaml

open Data (Datum Day Moment)

/-- The fields of a day, and of a time of day where there is one. -/
structure Stamp where
  year : Text
  month : Text
  day : Text
  time : Option (Text × Text × Text × Text × Option (Bool × Text × Text))

/-- So many digits, between the two counts, and the rest. -/
def digitsUpTo (least most : Nat) (t : Text) : Option (Text × Text) :=
  let ds := (t.take most).takeWhile Char.isDigit
  if least ≤ ds.length then some (ds, t.drop ds.length) else none

def after? (c : Char) : Text → Option Text
  | x :: r => if x = c then some r else none
  | [] => none

def pastBlanks (t : Text) : Text := t.dropWhile fun c => c = ' ' || c = '\t'

/-- The end of a moment: nothing, or a `Z`, or a sign with hours and perhaps minutes. -/
def zone? (t : Text) : Option (Option (Bool × Text × Text)) :=
  match pastBlanks t with
  | [] => if t.isEmpty then some none else none
  | ['Z'] => some (some (false, [], []))
  | s :: r =>
    if isSign s then do
      let (hours, r) ← digitsUpTo 1 2 r
      if r.isEmpty then return some (s = '-', hours, [])
      let (minutes, r) ← digitsUpTo 2 2 (← after? ':' r)
      if r.isEmpty then return some (s = '-', hours, minutes) else none
    else none

def time? (t : Text) : Option (Text × Text × Text × Text × Option (Bool × Text × Text)) := do
  let r ← match t with
    | 'T' :: r => some r
    | 't' :: r => some r
    | c :: r => if c = ' ' || c = '\t' then some (pastBlanks r) else none
    | [] => none
  let (hour, r) ← digitsUpTo 1 2 r
  let (minute, r) ← digitsUpTo 2 2 (← after? ':' r)
  let (second, r) ← digitsUpTo 2 2 (← after? ':' r)
  let (fraction, r) := match r with
    | '.' :: r => (r.takeWhile Char.isDigit, r.dropWhile Char.isDigit)
    | r => ([], r)
  return (hour, minute, second, fraction, ← zone? r)

def stamp? (t : Text) : Option Stamp := do
  let (year, r) ← digitsUpTo 4 4 t
  let (month, r) ← digitsUpTo 1 2 (← after? '-' r)
  let (day, r) ← digitsUpTo 1 2 (← after? '-' r)
  if r.isEmpty then return ⟨year, month, day, none⟩
  return ⟨year, month, day, some (← time? r)⟩

/-- A plain word that is a day or a moment; a day alone has two digits for its month and two for itself. -/
def isStamp (t : Text) : Bool :=
  match stamp? t with
  | none => false
  | some s => s.time.isSome || (s.month.length = 2 && s.day.length = 2)

def dayOf (year month day : Nat) : Except Fault Day :=
  if year < 1 then .error (.outOfRange ("year ".toList ++ Text.ofNat year ++ " is out of range".toList))
  else if month < 1 || 12 < month then .error (.outOfRange "month must be in 1..12".toList)
  else if day < 1 || Day.count year month < day then .error (.outOfRange "day is out of range for month".toList)
  else .ok ⟨year, month, day⟩

/-- How far a zone's clock is ahead, in seconds; a whole day is too far. -/
def offsetOf : Bool × Text × Text → Except Fault Int
  | (behind, hours, minutes) =>
    let size := 3600 * naturalOf hours + 60 * naturalOf minutes
    let seconds : Int := if behind then -(size : Int) else size
    if 86400 ≤ size then
      .error (.outOfRange ("offset must be a timedelta strictly between -timedelta(hours=24) and ".toList ++
        "timedelta(hours=24), not ".toList ++ Data.lengthCall seconds ++ ['.']))
    else .ok seconds

/-- The millionths of a second that a fraction's first six digits spell. -/
def microseconds (fraction : Text) : Nat :=
  let ds := fraction.take 6
  naturalOf ds * Nat.pow 10 (6 - ds.length)

/-- The value of a scalar that is a day or a moment; a line end after it does not count. -/
def timestamp (t : Text) : Except Fault Datum :=
  match stamp? (withoutLastBreak t) with
  | none => .error (.flawed .notMoment)
  | some s =>
    let year := naturalOf s.year
    let month := naturalOf s.month
    let day := naturalOf s.day
    match s.time with
    | none => (dayOf year month day).map .day
    | some (hour, minute, second, fraction, zone) => do
      let offset ← zone.mapM offsetOf
      let d ← dayOf year month day
      if 23 < naturalOf hour then throw (.outOfRange "hour must be in 0..23".toList)
      if 59 < naturalOf minute then throw (.outOfRange "minute must be in 0..59".toList)
      if 59 < naturalOf second then throw (.outOfRange "second must be in 0..59".toList)
      return .moment ⟨d, naturalOf hour, naturalOf minute, naturalOf second, microseconds fraction, offset⟩

end EntityScaffold.Yaml
