import LogRelay.Validation
import LogRelay.Yaml.Cursor

/-!
# Timestamps

Dates, alone or with a time of day and an offset, as plain scalars of a settings file may give them.
-/

namespace LogRelay.Yaml

/-- A time of day. -/
structure Clock where
  hour : Nat
  minute : Nat
  second : Nat
  microsecond : Nat
  /-- Minutes ahead of universal time, if the offset is given. -/
  offset : Option Int
deriving DecidableEq

/-- A date, and a time on it. -/
structure Timestamp where
  year : Nat
  month : Nat
  day : Nat
  clock : Option Clock
deriving DecidableEq

namespace Timestamp

/-! ### Reading -/

/-- A number of at least `least` and at most `most` digits, and what follows them. -/
def number? (least most : Nat) (t : Text) : Option (Nat × Text) :=
  let ds := (t.take most).takeWhile Text.isDigit
  if ds.length < least then none else some (Text.digitsValue ds, t.drop ds.length)

/-- What follows a code point. -/
def after? (c : CodePoint) : Text → Option Text
  | [] => none
  | x :: rest => if x = c then some rest else none

/-- The fraction of a second in microseconds, cut off behind the sixth digit. -/
def fraction (t : Text) : Nat × Text :=
  match after? '.' t with
  | none => (0, t)
  | some rest =>
    let ds := rest.takeWhile Text.isDigit
    let kept := ds.take 6
    (Text.digitsValue kept * Nat.pow 10 (6 - kept.length), rest.drop ds.length)

/-- The offset at the end of a timestamp. -/
def offset? (t : Text) : Option (Option Int) :=
  match t.dropWhile isBlank with
  | [] => if t.isEmpty then some none else none
  | sign :: rest =>
    if sign = 'Z' then if rest.isEmpty then some (some 0) else none
    else if sign = '+' ∨ sign = '-' then do
      let (hours, rest) ← number? 1 2 rest
      let minutes ← match rest with
        | [] => some 0
        | _ =>
          match after? ':' rest >>= number? 2 2 with
          | some (minutes, []) => some minutes
          | _ => none
      let total : Int := 60 * hours + minutes
      return some (if sign = '-' then -total else total)
    else none

/-- A time of day with its offset. -/
def clock? (t : Text) : Option Clock := do
  let (hour, t) ← number? 1 2 t
  let (minute, t) ← after? ':' t >>= number? 2 2
  let (second, t) ← after? ':' t >>= number? 2 2
  let (microsecond, t) := fraction t
  return ⟨hour, minute, second, microsecond, ← offset? t⟩

/-- The timestamp a text has the form of; whether there is such a day is not asked. -/
def parse? (t : Text) : Option Timestamp := do
  let (year, t) ← number? 4 4 t
  let (month, t) ← after? '-' t >>= number? 1 2
  let (day, t) ← after? '-' t >>= number? 1 2
  match t with
  | [] => return ⟨year, month, day, none⟩
  | c :: rest =>
    let rest ← if c = 'T' ∨ c = 't' then some rest
      else if isBlank c then some (rest.dropWhile isBlank) else none
    return ⟨year, month, day, some (← clock? rest)⟩

/-- Whether a plain scalar is a timestamp: without a time of day, month and day have two digits. -/
def isTimestamp (t : Text) : Bool :=
  match parse? t with
  | some ⟨_, _, _, none⟩ => t.length == 10
  | some _ => true
  | none => false

/-! ### Whether there is such a time -/

/-- How many days a month has. -/
def daysIn (year month : Nat) : Nat :=
  if month = 2 then
    if year % 4 = 0 ∧ (year % 100 ≠ 0 ∨ year % 400 = 0) then 29 else 28
  else if month = 4 ∨ month = 6 ∨ month = 9 ∨ month = 11 then 30
  else 31

/-- The shown form of an offset: whole days, and the seconds that lead on from there. -/
def shownOffset (minutes : Int) : Text :=
  let seconds := 60 * minutes
  let days := seconds.fdiv 86400
  let rest := seconds.fmod 86400
  let parts : List Text :=
    (if days ≠ 0 then [("days=" : Text) ++ Text.ofInt days] else []) ++
      (if rest ≠ 0 then [("seconds=" : Text) ++ Text.ofInt rest] else [])
  "datetime.timedelta(" ++ (if parts.isEmpty then ("0" : Text) else Text.joinWith ", " parts) ++ ")"

/-- What is wrong with a timestamp, if anything. -/
def problem? (t : Timestamp) : Option Text :=
  let date : Option Text :=
    if t.year = 0 then some "year 0 is out of range"
    else if t.month < 1 ∨ 12 < t.month then some "month must be in 1..12"
    else if t.day < 1 ∨ daysIn t.year t.month < t.day then some "day is out of range for month"
    else none
  match t.clock with
  | none => date
  | some c =>
    let offset : Option Text := c.offset.bind fun m =>
      if m.natAbs < 24 * 60 then none
      else some ("offset must be a timedelta strictly between -timedelta(hours=24) and " ++
        "timedelta(hours=24), not " ++ shownOffset m ++ ".")
    let time : Option Text :=
      if 23 < c.hour then some "hour must be in 0..23"
      else if 59 < c.minute then some "minute must be in 0..59"
      else if 59 < c.second then some "second must be in 0..59"
      else none
    (offset.or date).or time

/-! ### Order in time -/

/-- The number of a day, the first day of the first year being 1. -/
def dayNumber (year month day : Nat) : Nat :=
  let y := year - 1
  let months := (List.range (month - 1)).foldl (fun n m => n + daysIn year (m + 1)) 0
  365 * y + y / 4 - y / 100 + y / 400 + months + day

/-- The microseconds of universal time up to a timestamp, if it has an offset. -/
def instant? (t : Timestamp) : Option Int := do
  let c ← t.clock
  let m ← c.offset
  let minutes : Int := 60 * (24 * dayNumber t.year t.month t.day + c.hour) + c.minute - m
  return 1000000 * (60 * minutes + c.second) + c.microsecond

/-- Whether two timestamps are equal: by their time if both have an offset, by their parts
otherwise. -/
def isSame (s t : Timestamp) : Bool :=
  match s.instant?, t.instant? with
  | some a, some b => a == b
  | _, _ => s == t

/-! ### Writing -/

/-- A number filled with zeros on the left. -/
def padded (width n : Nat) : Text :=
  let ds := Text.ofNat n
  List.replicate (width - ds.length) ('0' : CodePoint) ++ ds

/-- The text of a timestamp. -/
def text (t : Timestamp) : Text :=
  let date := Text.joinWith "-" [padded 4 t.year, padded 2 t.month, padded 2 t.day]
  match t.clock with
  | none => date
  | some c =>
    let fraction : Text := if c.microsecond = 0 then [] else '.' :: padded 6 c.microsecond
    let offset : Text :=
      match c.offset with
      | none => []
      | some m =>
        (if m < 0 then '-' else '+' : CodePoint) :: (padded 2 (m.natAbs / 60) ++ ":" ++
          padded 2 (m.natAbs % 60))
    date ++ " " ++ Text.joinWith ":" [padded 2 c.hour, padded 2 c.minute, padded 2 c.second] ++
      fraction ++ offset

/-- The form of a timestamp inside a shown list; seconds and microseconds of zero are left out. -/
def inspect (t : Timestamp) : Text :=
  let numbers (ns : List Nat) : List Text := ns.map Text.ofNat
  let date := [t.year, t.month, t.day]
  let parts : Text × List Text :=
    match t.clock with
    | none => ("date", numbers date)
    | some c =>
      let seconds :=
        if c.microsecond ≠ 0 then [c.second, c.microsecond]
        else if c.second ≠ 0 then [c.second] else []
      let zone : List Text :=
        match c.offset with
        | none => []
        | some m =>
          ["tzinfo=datetime.timezone" ++
            (if m = 0 then ".utc" else "(" ++ shownOffset m ++ ")" : Text)]
      ("datetime", numbers (date ++ [c.hour, c.minute] ++ seconds) ++ zone)
  "datetime." ++ parts.1 ++ "(" ++ Text.joinWith ", " parts.2 ++ ")"

end Timestamp

end LogRelay.Yaml
