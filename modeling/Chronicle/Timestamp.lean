import Chronicle.Text.Blank

/-!
# Timestamps

A timestamp is a moment in UTC to the nanosecond.  It is read from a date, a
time and an offset, with blanks allowed around the parts, and written in the
form `YYYY-MM-DDThh:mm:ssZ` with three, six or nine places of a second when
fewer would lose something.
-/

namespace Chronicle

/-- A moment in UTC: the day counted from 1970-01-01, the second of that day,
and the nanosecond of that second, which goes on past a whole second in a leap
second. -/
structure Timestamp where
  day : Int
  second : Nat
  nano : Nat
  deriving Repr, DecidableEq, Inhabited

namespace Timestamp

/-- The beginning of 1970. -/
def epoch : Timestamp := ⟨0, 0, 0⟩

/-- The moment of some nanoseconds after the beginning of 1970. -/
def ofNanoseconds (nanoseconds : Int) : Timestamp :=
  let seconds := nanoseconds.fdiv 1000000000
  ⟨seconds.fdiv 86400, (seconds.fmod 86400).toNat, (nanoseconds.fmod 1000000000).toNat⟩

/-- A day of the proleptic Gregorian calendar. -/
structure Civil where
  year : Int
  month : Nat
  day : Nat
  deriving Repr, DecidableEq

namespace Civil

/-- Whether a year has a twenty-ninth of February. -/
def isLeap (year : Int) : Bool :=
  year % 4 == 0 && (year % 100 != 0 || year % 400 == 0)

/-- The number of days of a month. -/
def daysInMonth (year : Int) (month : Nat) : Nat :=
  if month = 2 then (if isLeap year then 29 else 28)
  else if month = 4 ∨ month = 6 ∨ month = 9 ∨ month = 11 then 30
  else 31

/-- Years outside these bounds, the lower included, are refused. -/
def yearBounds : Int × Int := (-262143, 262143)

/-- Whether the calendar has the day. -/
def isValid (date : Civil) : Bool :=
  yearBounds.1 ≤ date.year && date.year < yearBounds.2 &&
    1 ≤ date.month && date.month ≤ 12 &&
    1 ≤ date.day && date.day ≤ daysInMonth date.year date.month

/-- The day counted from 1970-01-01.  Years are taken to begin in March, so
the leap day is the last of its year. -/
def toDay (date : Civil) : Int :=
  let year := if date.month ≤ 2 then date.year - 1 else date.year
  let era := year / 400
  let yearOfEra := year % 400
  let monthFromMarch : Int := (date.month + 9) % 12
  let dayOfYear := (153 * monthFromMarch + 2) / 5 + date.day - 1
  let dayOfEra := yearOfEra * 365 + yearOfEra / 4 - yearOfEra / 100 + dayOfYear
  era * 146097 + dayOfEra - 719468

/-- The calendar's name of a day counted from 1970-01-01. -/
def ofDay (day : Int) : Civil :=
  let shifted := day + 719468
  let era := shifted / 146097
  let dayOfEra := shifted % 146097
  let yearOfEra := (dayOfEra - dayOfEra / 1460 + dayOfEra / 36524 - dayOfEra / 146096) / 365
  let dayOfYear := dayOfEra - (365 * yearOfEra + yearOfEra / 4 - yearOfEra / 100)
  let monthFromMarch := (5 * dayOfYear + 2) / 153
  let dayOfMonth := dayOfYear - (153 * monthFromMarch + 2) / 5 + 1
  let month := if monthFromMarch < 10 then monthFromMarch + 3 else monthFromMarch - 9
  let year := yearOfEra + era * 400
  ⟨if month ≤ 2 then year + 1 else year, month.toNat, dayOfMonth.toNat⟩

end Civil

/-- The last `width` decimal digits of a number. -/
def padded (width n : Nat) : List Char :=
  match width with
  | 0 => []
  | width + 1 => padded width (n / 10) ++ [Char.ofNat ('0'.toNat + n % 10)]

/-- The places of a second, with the fewest of none, three, six or nine. -/
def placesChars (nano : Nat) : List Char :=
  if nano = 0 then []
  else if nano % 1000000 = 0 then '.' :: padded 3 (nano / 1000000)
  else if nano % 1000 = 0 then '.' :: padded 6 (nano / 1000)
  else '.' :: padded 9 nano

/-- A year of four digits, or one with a sign outside their range. -/
def yearChars (year : Int) : List Char :=
  if 0 ≤ year ∧ year ≤ 9999 then padded 4 year.toNat
  else
    let digits := Nat.toDigits 10 year.natAbs
    (if year < 0 then '-' else '+') :: (List.replicate (4 - digits.length) '0' ++ digits)

/-- The text of a timestamp. -/
def chars (time : Timestamp) : List Char :=
  let date := Civil.ofDay time.day
  let leap := 1000000000 ≤ time.nano
  let second := time.second % 60 + (if leap then 1 else 0)
  let nano := if leap then time.nano - 1000000000 else time.nano
  yearChars date.year ++ '-' :: (padded 2 date.month ++ '-' :: (padded 2 date.day ++
    'T' :: (padded 2 (time.second / 3600) ++ ':' :: (padded 2 (time.second / 60 % 60) ++
      ':' :: (padded 2 second ++ (placesChars nano ++ ['Z']))))))

/-- The text of a timestamp as a string. -/
def toText (time : Timestamp) : String := String.ofList time.chars

/-- A reader of the beginning of a text, which returns the rest. -/
abbrev Scanner (α : Type) := List Char → Option (α × List Char)

namespace Scanner

/-- Whether a character is a decimal digit. -/
def isDigit (c : Char) : Bool := '0' ≤ c && c ≤ '9'

/-- The value of a list of decimal digits. -/
def value (digits : List Char) : Nat :=
  digits.foldl (fun n c => n * 10 + (c.toNat - '0'.toNat)) 0

/-- One to `most` digits after any blanks. -/
def number (most : Nat) : Scanner Nat := fun text =>
  let text := Text.trimStart text
  let digits := (text.take most).takeWhile isDigit
  if digits.isEmpty then none else some (value digits, text.drop digits.length)

/-- A number of digits without a limit, which has to fit 63 bits. -/
def unlimited : Scanner Nat := fun text =>
  let digits := text.takeWhile isDigit
  if digits.isEmpty || 9223372036854775808 ≤ value digits then none
  else some (value digits, text.drop digits.length)

/-- A year: up to four digits, or any number of them after a sign. -/
def year : Scanner Int := fun text =>
  match Text.trimStart text with
  | '-' :: rest => do
      let (n, rest) ← unlimited rest
      return (-(n : Int), rest)
  | '+' :: rest => do
      let (n, rest) ← unlimited rest
      return ((n : Int), rest)
  | text => do
      let (n, rest) ← number 4 text
      return ((n : Int), rest)

/-- A given character after any blanks. -/
def mark (expected : Char) : Scanner Unit := fun text =>
  match Text.trimStart text with
  | c :: rest => if c = expected then some ((), rest) else none
  | [] => none

/-- The places of a second in nanoseconds; digits after the ninth are dropped. -/
def places : Scanner Nat
  | '.' :: text =>
      let digits := text.takeWhile isDigit
      if digits.isEmpty then none
      else
        let kept := digits.take 9
        some (value kept * Nat.pow 10 (9 - kept.length), text.drop digits.length)
  | text => some (0, text)

/-- Two digits. -/
def twoDigits : Scanner Nat
  | a :: b :: rest => if isDigit a && isDigit b then some (value [a, b], rest) else none
  | _ => none

/-- The name of the zero offset without regard to case. -/
def isZeroName (a b c : Char) : Bool :=
  (a == 'U' || a == 'u') && (b == 'T' || b == 't') && (c == 'C' || c == 'c')

/-- An offset with a sign, in seconds. -/
def signedOffset (negative : Bool) : Scanner Int := fun text => do
  let (hours, rest) ← twoDigits text
  let (minutes, rest) ← twoDigits (rest.dropWhile fun c => c == ':' || Text.isBlank c)
  if 60 ≤ minutes then none
  else
    let seconds : Int := hours * 3600 + minutes * 60
    return (if negative then -seconds else seconds, rest)

/-- An offset from UTC in seconds. -/
def offset : Scanner Int
  | 'Z' :: rest => some (0, rest)
  | 'z' :: rest => some (0, rest)
  | '+' :: rest => signedOffset false rest
  | '-' :: rest => signedOffset true rest
  | '\u2212' :: rest => signedOffset true rest
  | a :: b :: c :: rest => if isZeroName a b c then some (0, rest) else none
  | _ => none

end Scanner

/-- The character between date and time. -/
def isDivider (c : Char) : Bool := c == 'T' || c == 't' || c == ' '

/-- The moment of a local time with an offset.  The sixtieth second of a minute
is the leap second after the fifty-ninth. -/
def ofLocal? (date : Civil) (hour minute second nano : Nat) (offset : Int) : Option Timestamp :=
  if date.isValid && hour < 24 && minute < 60 && second ≤ 60 && offset.natAbs < 86400 then
    let leap := second == 60
    let whole : Int := hour * 3600 + minute * 60 + (if leap then 59 else second) - offset
    let day := date.toDay + whole / 86400
    let year := (Civil.ofDay day).year
    if Civil.yearBounds.1 ≤ year ∧ year < Civil.yearBounds.2 then
      some ⟨day, (whole % 86400).toNat, if leap then nano + 1000000000 else nano⟩
    else none
  else none

/-- Reads a timestamp. -/
def ofChars? (text : List Char) : Option Timestamp := do
  let (year, text) ← Scanner.year text
  let (_, text) ← Scanner.mark '-' text
  let (month, text) ← Scanner.number 2 text
  let (_, text) ← Scanner.mark '-' text
  let (day, text) ← Scanner.number 2 text
  let divider :: text := text | none
  if !isDivider divider then none
  let (hour, text) ← Scanner.number 2 text
  let (_, text) ← Scanner.mark ':' text
  let (minute, text) ← Scanner.number 2 text
  let (_, text) ← Scanner.mark ':' text
  let (second, text) ← Scanner.number 2 text
  let (nano, text) ← Scanner.places text
  let (offset, text) ← Scanner.offset (Text.trimStart text)
  if (Text.trimStart text).isEmpty then ofLocal? ⟨year, month, day⟩ hour minute second nano offset
  else none

/-- Reads a timestamp from a string. -/
def ofText? (text : String) : Option Timestamp := ofChars? text.toList

end Timestamp
end Chronicle
