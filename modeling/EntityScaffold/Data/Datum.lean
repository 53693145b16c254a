import EntityScaffold.Text.Utf8

/- Data as a settings file or a caller gives them, before anything is known about their shape. -/

namespace EntityScaffold.Data

structure Day where
  year : Nat
  month : Nat
  day : Nat
  deriving DecidableEq, Repr

namespace Day

def isLeap (year : Nat) : Bool := year % 4 = 0 && (year % 100 ≠ 0 || year % 400 = 0)

def count (year month : Nat) : Nat :=
  if month = 2 then if isLeap year then 29 else 28
  else if [4, 6, 9, 11].contains month then 30 else 31

/-- How many days there are before a day, from the first day of the first year on. -/
def ordinal (d : Day) : Nat :=
  let y := d.year - 1
  365 * y + y / 4 - y / 100 + y / 400 + ((List.range (d.month - 1)).foldl (fun n m => n + count d.year (m + 1)) 0) +
    (d.day - 1)

end Day

/-- A moment: a day, a time of day, and how many seconds its clock is ahead of universal time, if that is known. -/
structure Moment where
  day : Day
  hour : Nat
  minute : Nat
  second : Nat
  microsecond : Nat
  offset : Option Int
  deriving DecidableEq, Repr

/-- A moment by universal time, in millionths of a second, if it is known. -/
def Moment.universal? (m : Moment) : Option Int :=
  m.offset.map fun ahead =>
    1000000 * (86400 * m.day.ordinal + 3600 * m.hour + 60 * m.minute + m.second - ahead) + m.microsecond

/-- Whether two moments are the same; one whose zone is not known is only the same as one that reads alike. -/
def Moment.same (m n : Moment) : Bool :=
  match m.universal?, n.universal? with
  | some i, some j => i = j
  | none, none => m = n
  | _, _ => false

/-- A datum. A map keeps the order of its entries, and its keys need not be texts. -/
inductive Datum where
  | null
  | bool (b : Bool)
  | int (i : Int)
  | float (x : Float)
  | text (t : Text)
  | day (d : Day)
  | moment (m : Moment)
  | octets (bs : Octets)
  | list (items : List Datum)
  | map (entries : List (Datum × Datum))
  | set (items : List Datum)
  deriving Inhabited

namespace Datum

def kindName : Datum → Text
  | null => "NoneType".toList
  | bool _ => "bool".toList
  | int _ => "int".toList
  | float _ => "float".toList
  | text _ => "str".toList
  | day _ => "date".toList
  | moment _ => "datetime".toList
  | octets _ => "bytes".toList
  | list _ => "list".toList
  | map _ => "dict".toList
  | set _ => "set".toList

def ofEntries (entries : List (Text × Datum)) : Datum := map (entries.map fun e => (text e.1, e.2))

def texts (ts : List Text) : Datum := list (ts.map text)

def get? (key : Text) : List (Datum × Datum) → Option Datum
  | [] => none
  | (text k, v) :: r => if k = key then some v else get? key r
  | _ :: r => get? key r

/-- Sets the value of a text key: in its place if it is there, else at the end. -/
def put (key : Text) (value : Datum) : List (Datum × Datum) → List (Datum × Datum)
  | [] => [(text key, value)]
  | (text k, v) :: r => if k = key then (text k, value) :: r else (text k, v) :: put key value r
  | e :: r => e :: put key value r

end Datum

end EntityScaffold.Data
