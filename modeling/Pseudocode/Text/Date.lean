import Pseudocode.Text.Lines

/-!
# Dates

Points in time as a date and a time of day, in universal time and in the Gregorian calendar.
-/

namespace Pseudocode.Text

instance nanosNeZero : @NeZero Nat Zero.ofOfNat0 1000000000 :=
  ⟨Nat.succ_ne_zero 999999999⟩

/-- A point in time: the seconds since 1970, and the nanoseconds beyond the last of them. -/
structure Moment where
  seconds : Int
  nanos : Fin 1000000000 := 0
  deriving DecidableEq, Repr

/-- The nanoseconds since 1970. -/
def Moment.total (t : Moment) : Int :=
  t.seconds * 1000000000 + t.nanos.val

namespace Date

/-- A day of the calendar. -/
structure Day where
  year : Int
  month : Nat
  day : Nat

/-- The day that lies a number of days after the first of January 1970. Years are counted from the
first of March, so that a leap day is the last of its year, in eras of 400 years. -/
def ofDays (days : Int) : Day :=
  let z := days + 719468
  let era := z.fdiv 146097
  let doe := (z - era * 146097).toNat
  let yoe := (doe - doe / 1460 + doe / 36524 - doe / 146096) / 365
  let doy := doe - (365 * yoe + yoe / 4 - yoe / 100)
  let mp := (5 * doy + 2) / 153
  let day := doy - (153 * mp + 2) / 5 + 1
  let month := if mp < 10 then mp + 3 else mp - 9
  { year := (yoe : Int) + era * 400 + (if month ≤ 2 then 1 else 0), month, day }

/-- A number filled with zeros to a width. -/
def padded (width : Nat) (n : Nat) : String :=
  let ds := Nat.toDigits 10 n
  String.ofList (List.replicate (width - ds.length) '0' ++ ds)

/-- A year of at least four digits. -/
def year (y : Int) : String :=
  if y < 0 then "-" ++ padded 4 y.natAbs else padded 4 y.natAbs

/-- The number of days from the first of January 1970 to a day. -/
def Day.toDays (d : Day) : Int :=
  let y := if d.month ≤ 2 then d.year - 1 else d.year
  let era := y.fdiv 400
  let yoe := (y - era * 400).toNat
  let mp := if d.month ≤ 2 then d.month + 9 else d.month - 3
  let doy := (153 * mp + 2) / 5 + d.day - 1
  era * 146097 + (yoe * 365 + yoe / 4 - yoe / 100 + doy : Nat) - 719468

/-- The date and the time to the minute. -/
def minute (seconds : Int) : String :=
  let days := seconds.fdiv 86400
  let rest := (seconds - days * 86400).toNat
  let d := ofDays days
  year d.year ++ "-" ++ padded 2 d.month ++ "-" ++ padded 2 d.day ++ " " ++ padded 2 (rest / 3600)
    ++ ":" ++ padded 2 (rest / 60 % 60)

/-- A fraction of a second without zeros at its end; a whole second has none. -/
def fraction (nanos : Fin 1000000000) : String :=
  if nanos = 0 then ""
  else "." ++ String.ofList ((padded 9 nanos.val).toList.reverse.dropWhile (· = '0')).reverse

/-- The date and the time, in the form of an internet time stamp. -/
def stamp (t : Moment) : String :=
  let days := t.seconds.fdiv 86400
  let rest := (t.seconds - days * 86400).toNat
  let d := ofDays days
  year d.year ++ "-" ++ padded 2 d.month ++ "-" ++ padded 2 d.day ++ "T" ++ padded 2 (rest / 3600)
    ++ ":" ++ padded 2 (rest / 60 % 60) ++ ":" ++ padded 2 (rest % 60) ++ fraction t.nanos ++ "Z"

/-! ## Reading time stamps -/

/-- A number of one or two digits. -/
def pair? : List Char → Option (Nat × List Char)
  | c :: d :: cs =>
    if !c.isDigit then none
    else if d.isDigit then some (10 * (c.toNat - 48) + (d.toNat - 48), cs)
    else some (c.toNat - 48, d :: cs)
  | [c] => if c.isDigit then some (c.toNat - 48, []) else none
  | [] => none

/-- Reads a given sign. -/
def sign? (c : Char) : List Char → Option (List Char)
  | d :: cs => if c = d then some cs else none
  | [] => none

/-- The number of days of a month. -/
def daysIn (y : Int) (month : Nat) : Nat :=
  if month = 2 then if y % 4 = 0 ∧ (y % 100 ≠ 0 ∨ y % 400 = 0) then 29 else 28
  else if month = 4 ∨ month = 6 ∨ month = 9 ∨ month = 11 then 30
  else 31

/-- Reads a day: a year of four digits, a month and a day. -/
def day? (cs : List Char) : Option (Day × List Char) := do
  let ys := cs.takeWhile Char.isDigit
  guard (ys.length = 4)
  let y := ys.foldl (fun n c => 10 * n + (c.toNat - 48)) (0 : Nat)
  let (month, cs) ← pair? (← sign? '-' (cs.drop 4))
  let (day, cs) ← pair? (← sign? '-' cs)
  guard (1 ≤ month ∧ month ≤ 12 ∧ 1 ≤ day ∧ day ≤ daysIn y month)
  return ({ year := y, month, day }, cs)

/-- The nanoseconds that the digits of a fraction spell; what is finer is dropped. -/
def nanosOf (digits : List Char) : Fin 1000000000 :=
  Fin.ofNat _ <| ((digits ++ List.replicate 9 '0').take 9).foldl
    (fun n c => 10 * n + (c.toNat - 48)) 0

/-- Reads a fraction of a second, if there is one. -/
def fractionOf : List Char → Fin 1000000000 × List Char
  | c :: d :: cs =>
    if (c = '.' ∨ c = ',') ∧ d.isDigit then
      (nanosOf ((d :: cs).takeWhile Char.isDigit), (d :: cs).dropWhile Char.isDigit)
    else (0, c :: d :: cs)
  | cs => (0, cs)

/-- Reads a time of day, counted from midnight. -/
def clock? (cs : List Char) : Option (Moment × List Char) := do
  let (hour, cs) ← pair? cs
  let (minute, cs) ← pair? (← sign? ':' cs)
  let (second, cs) ← pair? (← sign? ':' cs)
  guard (hour < 24 ∧ minute < 60 ∧ second < 60)
  let (nanos, cs) := fractionOf cs
  let seconds : Nat := hour * 3600 + minute * 60 + second
  return ({ seconds, nanos }, cs)

/-- Reads the distance from universal time up to the end, in seconds. -/
def zone? : List Char → Option Int
  | ['Z'] => some 0
  | [s, a, b, ':', c, d] => do
    guard (s = '+' ∨ s = '-')
    guard ([a, b, c, d].all Char.isDigit)
    let (hour, _) ← pair? [a, b]
    let (minute, _) ← pair? [c, d]
    guard (hour ≤ 24 ∧ minute ≤ 60)
    let t : Int := hour * 3600 + minute * 60
    return if s = '-' then -t else t
  | _ => none

/-- Reads a time stamp: a day, perhaps with a time of day behind a letter and its zone at the end,
or behind blanks and in universal time. -/
def ofStamp? (s : String) : Option Moment := do
  let (day, cs) ← day? s.toList
  let midnight := day.toDays * 86400
  match cs with
  | [] => return { seconds := midnight }
  | c :: rest =>
    if c = 'T' ∨ c = 't' then
      let (t, rest) ← clock? rest
      return { t with seconds := midnight + t.seconds - (← zone? rest) }
    else
      guard (c = ' ')
      let (t, rest) ← clock? (rest.dropWhile (· = ' '))
      guard rest.isEmpty
      return { t with seconds := midnight + t.seconds }

/-- Whether a text has the form of a time stamp with all digits, a capital letter and a zone. -/
def isFullStamp (s : String) : Bool :=
  let cs := s.toList
  let form := "0000-00-00T00:00:00".toList
  form.length < cs.length
    && (List.zipWith (fun f c => if f = '0' then c.isDigit else f == c) form cs).all id
    && match cs.drop form.length with
      | '.' :: rest => isZone (rest.dropWhile Char.isDigit)
      | rest => isZone rest
where
  /-- Whether a zone is written within its bounds. -/
  isZone : List Char → Bool
    | ['Z'] => true
    | [_, a, b, _, c, _] => (a < '2' || (a = '2' && b < '4')) && c < '6'
    | _ => false

end Date

end Pseudocode.Text
