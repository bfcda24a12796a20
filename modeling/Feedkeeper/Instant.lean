import Feedkeeper.Instant.Calendar
import Feedkeeper.Text.Blank
import Feedkeeper.Text.Digits

/-!
# Instants

Points of time in UTC, to the nanosecond. A leap second is the second before it with more than a
second's worth of nanoseconds. An instant is written as an RFC 3339 text ending in `Z`, with as few
of 0, 3, 6 and 9 fraction digits as are exact. `Instant.read?` accepts any offset, blanks before
the numbers and separators, and dates of any length of year with a sign.
-/

namespace Feedkeeper

/-- A point of time in UTC. -/
structure Instant where
  /-- Seconds since 1970-01-01T00:00:00. -/
  seconds : Int
  /-- From 10 ^ 9 on, those of a leap second. -/
  nanos : Nat
  deriving DecidableEq, Repr

namespace Instant

/-! ## Writing -/

/-- A year in four digits, or with a sign if it takes more or is negative. -/
def yearText (year : Int) : List Char :=
  if 0 ≤ year ∧ year ≤ 9999 then Digits.padded 4 year.toNat
  else (if year < 0 then '-' else '+') :: Digits.padded 4 year.natAbs

/-- The fraction of a second, in the fewest of 0, 3, 6 and 9 digits. -/
def fractionText (nanos : Nat) : List Char :=
  if nanos = 0 then []
  else if nanos % 1000000 = 0 then '.' :: Digits.padded 3 (nanos / 1000000)
  else if nanos % 1000 = 0 then '.' :: Digits.padded 6 (nanos / 1000)
  else '.' :: Digits.padded 9 nanos

/-- The characters of an instant in RFC 3339 form. -/
def chars (instant : Instant) : List Char :=
  let date := Calendar.Date.ofDays (instant.seconds.fdiv 86400)
  let time := (instant.seconds.fmod 86400).toNat
  let leap := instant.nanos / 1000000000
  yearText date.year ++ '-' :: Digits.padded 2 date.month ++ '-' :: Digits.padded 2 date.day ++
    'T' :: Digits.padded 2 (time / 3600) ++ ':' :: Digits.padded 2 (time / 60 % 60) ++
    ':' :: Digits.padded 2 (time % 60 + leap) ++ fractionText (instant.nanos % 1000000000) ++ ['Z']

/-- The text of an instant. -/
def text (instant : Instant) : String :=
  String.ofList instant.chars

/-! ## Reading -/

/-- Skips white space and then reads one to `width` digits. -/
def number? (width : Nat) (chars : List Char) : Option (Nat × List Char) :=
  let chars := Text.skipBlanks chars
  let digits := (chars.take width).takeWhile Digits.isDigit
  if digits = [] then none else some (Digits.value digits, chars.drop digits.length)

/-- A year: up to four digits, or any number of digits behind a sign. -/
def year? (chars : List Char) : Option (Int × List Char) :=
  let chars := Text.skipBlanks chars
  let signed (rest : List Char) : Option (Nat × List Char) :=
    let digits := rest.takeWhile Digits.isDigit
    if digits = [] then none else some (Digits.value digits, rest.dropWhile Digits.isDigit)
  match chars with
  | '-' :: rest => (signed rest).map fun (n, rest) => (-n, rest)
  | '+' :: rest => (signed rest).map fun (n, rest) => (n, rest)
  | chars => (number? 4 chars).map fun (n, rest) => (n, rest)

/-- Skips white space and then the character. -/
def separator? (c : Char) (chars : List Char) : Option (List Char) :=
  match Text.skipBlanks chars with
  | [] => none
  | first :: rest => if first = c then some rest else none

/-- A fraction of a second in nanoseconds, if a point begins one; digits beyond nine are dropped. -/
def fraction? : List Char → Option (Nat × List Char)
  | '.' :: rest =>
    let digits := rest.takeWhile Digits.isDigit
    let kept := digits.take 9
    if digits = [] then none
    else some (Digits.value kept * Nat.pow 10 (9 - kept.length), rest.drop digits.length)
  | chars => some (0, chars)

/-- Two digits. -/
def pair? : List Char → Option (Nat × List Char)
  | a :: b :: rest =>
    if Digits.isDigit a && Digits.isDigit b then some (Digits.value [a, b], rest) else none
  | _ => none

/-- An offset from UTC in seconds: hours and minutes behind a sign, colons or blanks between. -/
def signedOffset? (negative : Bool) (chars : List Char) : Option (Int × List Char) := do
  let (hours, rest) ← pair? chars
  let (minutes, rest) ← pair? (rest.dropWhile fun c => c = ':' || Text.isBlank c)
  if 60 ≤ minutes then none
  let offset : Int := (hours * 3600 + minutes * 60 : Nat)
  return (if negative then -offset else offset, rest)

/-- An offset: `Z`, `UTC`, or behind a sign, for which the minus of mathematics is accepted too. -/
def offset? (chars : List Char) : Option (Int × List Char) :=
  match chars with
  | u :: t :: c :: rest =>
    if (u = 'U' ∨ u = 'u') ∧ (t = 'T' ∨ t = 't') ∧ (c = 'C' ∨ c = 'c') then some (0, rest)
    else other chars
  | _ => other chars
where
  other : List Char → Option (Int × List Char)
    | [] => none
    | first :: rest =>
      if first = 'Z' ∨ first = 'z' then some (0, rest)
      else if first = '+' then signedOffset? false rest
      else if first = '-' ∨ first = '\u2212' then signedOffset? true rest
      else none

/-- The years that dates are kept for. -/
def yearInRange (year : Int) : Bool :=
  -262143 ≤ year && year ≤ 262142

/-- The instant of a date and time at an offset from UTC. The second 60 is a leap second. -/
def ofParts? (date : Calendar.Date) (hour minute second nanos : Nat) (offset : Int) :
    Option Instant :=
  if date.isValid && yearInRange date.year && hour ≤ 23 && minute ≤ 59 && second ≤ 60 &&
      offset.natAbs < 86400 then
    let leap := second / 60
    let time := hour * 3600 + minute * 60 + (second - leap)
    let seconds := date.toDays * 86400 + time - offset
    let instant : Instant := ⟨seconds, nanos + leap * 1000000000⟩
    if yearInRange (Calendar.Date.ofDays (seconds.fdiv 86400)).year then some instant else none
  else none

/-- The instant of a text. -/
def read? (text : String) : Option Instant := do
  let (year, rest) ← year? text.toList
  let (month, rest) ← number? 2 (← separator? '-' rest)
  let (day, rest) ← number? 2 (← separator? '-' rest)
  let rest ← match rest with
    | mark :: rest => if mark = 'T' ∨ mark = 't' ∨ mark = ' ' then some rest else none
    | [] => none
  let (hour, rest) ← number? 2 rest
  let (minute, rest) ← number? 2 (← separator? ':' rest)
  let (second, rest) ← number? 2 (← separator? ':' rest)
  let (nanos, rest) ← fraction? rest
  let (offset, rest) ← offset? (Text.skipBlanks rest)
  if Text.skipBlanks rest ≠ [] then none
  ofParts? ⟨year, month, day⟩ hour minute second nanos offset

end Instant

end Feedkeeper
