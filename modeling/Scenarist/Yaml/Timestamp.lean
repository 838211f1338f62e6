import Scenarist.Yaml.Char

set_option autoImplicit false

/-! # Dates and times

A date is a year, a month and a day; a time of day with hours, minutes and seconds may follow, with parts
of a second and the distance from universal time. What looks like a date may still name a day that there
never was. -/

namespace Scenarist.Yaml

/-- A time of day. -/
structure DayTime where
  hour : Nat
  minute : Nat
  second : Nat
  /-- The minutes between the time and universal time. -/
  distance : Nat
  deriving DecidableEq, Repr

/-- A date, or a time on a date. -/
structure Timestamp where
  year : Nat
  month : Nat
  day : Nat
  /-- Whether month and day are written with two digits each. -/
  isFull : Bool
  time : Option DayTime
  deriving DecidableEq, Repr

namespace Timestamp

def number (digits : Text) : Nat := digits.foldl (fun n d => 10 * n + (d.toNat - '0'.toNat)) 0

/-- The digits that a text begins with, `least` to `most` of them, and what follows. -/
def digits? (least most : Nat) (text : Text) : Option (Text × Text) :=
  let taken := (text.take most).takeWhile Char.isDigit
  if taken.length < least then none else some (taken, text.drop taken.length)

/-- The distance from universal time in minutes that a text begins with, and what follows. -/
def distance? (text : Text) : Option (Nat × Text) :=
  match text with
  | 'Z' :: rest => some (0, rest)
  | sign :: rest =>
    if sign = '+' || sign = '-' then do
      let (hours, rest) ← digits? 1 2 rest
      match rest with
      | ':' :: rest => do
        let (minutes, rest) ← digits? 2 2 rest
        return (60 * number hours + number minutes, rest)
      | rest => return (60 * number hours, rest)
    else none
  | [] => none

def dayTime? (text : Text) : Option DayTime := do
  let (hour, rest) ← digits? 1 2 text
  let rest ← Text.after? [':'] rest
  let (minute, rest) ← digits? 2 2 rest
  let rest ← Text.after? [':'] rest
  let (second, rest) ← digits? 2 2 rest
  let rest := match rest with
    | '.' :: rest => rest.dropWhile Char.isDigit
    | rest => rest
  let time := fun distance => DayTime.mk (number hour) (number minute) (number second) distance
  if rest.isEmpty then return time 0
  else
    let (distance, rest) ← distance? (rest.dropWhile isSpace)
    if rest.isEmpty then return time distance else none

/-- What a text says if it is a date or a time on a date. -/
def ofText? (text : Text) : Option Timestamp := do
  let (year, rest) ← digits? 4 4 text
  let rest ← Text.after? ['-'] rest
  let (month, rest) ← digits? 1 2 rest
  let rest ← Text.after? ['-'] rest
  let (day, rest) ← digits? 1 2 rest
  let stamp : Timestamp :=
    ⟨number year, number month, number day, month.length = 2 && day.length = 2, none⟩
  match rest with
  | [] => return stamp
  | c :: tail =>
    if c = 'T' || c = 't' then return { stamp with time := some (← dayTime? tail) }
    else if isSpace c then return { stamp with time := some (← dayTime? (tail.dropWhile isSpace)) }
    else none

/-- Whether a text looks like a date or a time: a date alone is written in full. -/
def isLook (text : Text) : Bool := (ofText? text).any fun stamp => stamp.isFull || stamp.time.isSome

def daysOf (year month : Nat) : Nat :=
  if month = 2 then
    if year % 4 = 0 && (year % 100 ≠ 0 || year % 400 = 0) then 29 else 28
  else if month ∈ [4, 6, 9, 11] then 30 else 31

/-- Why a timestamp names no time that there is. -/
def fault? (stamp : Timestamp) : Option Text :=
  if stamp.year = 0 then some "year 0 is out of range".toList
  else if stamp.month = 0 || 12 < stamp.month then some "month must be in 1..12".toList
  else if stamp.day = 0 || daysOf stamp.year stamp.month < stamp.day then
    some "day is out of range for month".toList
  else stamp.time.bind fun time =>
    if 24 * 60 ≤ time.distance then
      some "offset must be strictly between -24 and 24 hours".toList
    else if 23 < time.hour then some "hour must be in 0..23".toList
    else if 59 < time.minute then some "minute must be in 0..59".toList
    else if 59 < time.second then some "second must be in 0..59".toList
    else none

end Timestamp

end Scenarist.Yaml
