import CodeGraph.Text.Line
import CodeGraph.Text.Number
import CodeGraph.Time.Calendar

/-!
# Timestamps

A timestamp is a point of time in UTC with a resolution of nanoseconds. The second in which a leap
second falls has two thousand million nanoseconds.

* `Timestamp.read?`: reads a date, a time and an offset such as `2024-01-01T00:00:00.5+01:00`, with
  some liberties;
* `Timestamp.write`: writes it in UTC, as `2023-12-31T23:00:00.500Z`;
* `Timestamp.nanosecondsSince`: the time between two timestamps.
-/

namespace CodeGraph

open Text

/-- A point of time. -/
structure Timestamp where
  /-- The days from 1970-01-01. -/
  day : Int
  /-- The seconds of the day. -/
  second : Nat
  /-- The nanoseconds of the second; those of a leap second follow those of the second before. -/
  nanosecond : Nat
deriving DecidableEq, Repr

namespace Timestamp

/-- The nanoseconds of a second. -/
def perSecond : Nat := tenTo 9

/-- The seconds of a day. -/
def secondsPerDay : Nat := 86400

/-! ### Reading -/

/-- One to `most` digits behind white space, and what follows them. -/
def readNumber? (most : Nat) (cs : List Char) : Option (Nat × List Char) :=
  let cs := dropBlank cs
  let ds := (cs.take most).takeWhile isAsciiDigit
  if ds.isEmpty then none else some (decimal ds, cs.drop ds.length)

/-- A year: four digits at most, or a sign and any number of digits. -/
def readYear? (cs : List Char) : Option (Int × List Char) :=
  match dropBlank cs with
  | '-' :: rest => (signed? rest).map fun (n, rest) => (-n, rest)
  | '+' :: rest => signed? rest
  | rest => (readNumber? 4 rest).map fun (n, rest) => ((n : Int), rest)
where
  /-- The digits behind a sign. -/
  signed? (cs : List Char) : Option (Int × List Char) :=
    let ds := cs.takeWhile isAsciiDigit
    if ds.isEmpty then none else some ((decimal ds : Int), cs.dropWhile isAsciiDigit)

/-- What follows a separator behind white space. -/
def readMark? (mark : Char) (cs : List Char) : Option (List Char) :=
  match dropBlank cs with
  | c :: rest => if c = mark then some rest else none
  | [] => none

/-- Year, month and day. -/
def readDate? (cs : List Char) : Option (Date × List Char) := do
  let (year, cs) ← readYear? cs
  let cs ← readMark? '-' cs
  let (month, cs) ← readNumber? 2 cs
  let cs ← readMark? '-' cs
  let (day, cs) ← readNumber? 2 cs
  return (⟨year, month, day⟩, cs)

/-- The nanoseconds of a fraction, if there is one. Digits from the tenth on are passed over. -/
def readFraction? (cs : List Char) : Option (Nat × List Char) :=
  match cs with
  | '.' :: rest =>
    let ds := (rest.takeWhile isAsciiDigit).take 9
    if ds.isEmpty then none
    else some (decimal ds * tenTo (9 - ds.length), rest.dropWhile isAsciiDigit)
  | _ => some (0, cs)

/-- The second of the day and its nanoseconds. Second sixty is a leap second. -/
def readTime? (cs : List Char) : Option (Nat × Nat × List Char) := do
  let (hour, cs) ← readNumber? 2 cs
  let cs ← readMark? ':' cs
  let (minute, cs) ← readNumber? 2 cs
  let cs ← readMark? ':' cs
  let (second, cs) ← readNumber? 2 cs
  let (nano, cs) ← readFraction? cs
  if hour < 24 ∧ minute < 60 ∧ second ≤ 60 then
    if second = 60 then some (hour * 3600 + minute * 60 + 59, nano + perSecond, cs)
    else some (hour * 3600 + minute * 60 + second, nano, cs)
  else none

/-- Two digits. -/
def readPair? : List Char → Option (Nat × List Char)
  | a :: b :: rest =>
    if isAsciiDigit a && isAsciiDigit b then some (10 * digitValue a + digitValue b, rest) else none
  | _ => none

/-- The seconds of an offset behind its sign. -/
def readOffsetSize? (cs : List Char) : Option (Nat × List Char) := do
  let (hours, cs) ← readPair? cs
  let (minutes, cs) ← readPair? (cs.dropWhile fun c => c == ':' || isBlank c)
  if minutes < 60 ∧ hours < 24 then some (hours * 3600 + minutes * 60, cs) else none

/-- The offset from UTC in seconds. -/
def readOffset? (cs : List Char) : Option (Int × List Char) :=
  match keywordUtc? cs with
  | some rest => some (0, rest)
  | none =>
    match cs with
    | 'Z' :: rest => some (0, rest)
    | 'z' :: rest => some (0, rest)
    | '+' :: rest => (readOffsetSize? rest).map fun (n, rest) => ((n : Int), rest)
    | '-' :: rest => (readOffsetSize? rest).map fun (n, rest) => (-(n : Int), rest)
    | '\u2212' :: rest => (readOffsetSize? rest).map fun (n, rest) => (-(n : Int), rest)
    | _ => none
where
  /-- What follows the letters `UTC` in any case. -/
  keywordUtc? (cs : List Char) : Option (List Char) :=
    if (cs.take 3).map Char.toLower = "utc".toList then some (cs.drop 3) else none

/-- Behind a date and before a time. -/
def isDivider (c : Char) : Bool :=
  c == 'T' || c == 't' || c == ' '

/-- The timestamp of a local date and time. -/
def ofLocal (date : Date) (second : Nat) (nano : Nat) (offset : Int) : Option Timestamp :=
  let seconds := (second : Int) - offset
  let day := date.dayNumber + seconds / secondsPerDay
  if date.isValid ∧ Date.firstDay ≤ day ∧ day ≤ Date.lastDay then
    some ⟨day, (seconds % secondsPerDay).toNat, nano⟩
  else none

/-- The timestamp that a text spells. -/
def read? (text : String) : Option Timestamp := do
  let (date, cs) ← readDate? text.toList
  match cs with
  | c :: cs =>
    if isDivider c then do
      let (second, nano, cs) ← readTime? cs
      let (offset, cs) ← readOffset? (dropBlank cs)
      if isBlankText cs then ofLocal date second nano offset else none
    else none
  | [] => none

/-! ### Writing -/

/-- A number in at least `width` digits. -/
def padded (width n : Nat) : List Char :=
  padZeros width (showNat n)

/-- A year: four digits, or a sign and at least four. -/
def writeYear (year : Int) : List Char :=
  if 0 ≤ year ∧ year ≤ 9999 then padded 4 year.natAbs
  else (if year < 0 then '-' else '+') :: padded 4 year.natAbs

/-- A fraction of a second in as many groups of three digits as it takes. -/
def writeFraction (nano : Nat) : List Char :=
  if nano = 0 then []
  else if nano % tenTo 6 = 0 then '.' :: padded 3 (nano / tenTo 6)
  else if nano % tenTo 3 = 0 then '.' :: padded 6 (nano / tenTo 3)
  else '.' :: padded 9 nano

/-- The text of a timestamp, in UTC. -/
def write (t : Timestamp) : String :=
  let date := Date.ofDayNumber t.day
  let leap := t.nanosecond / perSecond
  String.ofList (writeYear date.year ++ '-' :: padded 2 date.month ++ '-' :: padded 2 date.day ++
    'T' :: padded 2 (t.second / 3600) ++ ':' :: padded 2 (t.second / 60 % 60) ++
    ':' :: padded 2 (t.second % 60 + leap) ++ writeFraction (t.nanosecond % perSecond) ++ ['Z'])

/-! ### Differences -/

/-- Whether a timestamp lies in a leap second. -/
def inLeapSecond (t : Timestamp) : Bool :=
  perSecond ≤ t.nanosecond

/-- The leap second between two times of day, if one of them lies in it: one if it is the start, minus
one if it is the end. -/
def leapBetween (start finish : Timestamp) : Int :=
  if start.second < finish.second ∧ start.inLeapSecond then 1
  else if finish.second < start.second ∧ finish.inLeapSecond then -1
  else 0

/-- The nanoseconds from one timestamp to another. -/
def nanosecondsSince (finish start : Timestamp) : Int :=
  ((finish.day - start.day) * secondsPerDay + ((finish.second : Int) - start.second) +
    leapBetween start finish) * perSecond + ((finish.nanosecond : Int) - start.nanosecond)

/-- The whole milliseconds from one timestamp to another, rounded toward zero. -/
def millisecondsSince (finish start : Timestamp) : Int :=
  (finish.nanosecondsSince start).tdiv (tenTo 6)

end Timestamp

end CodeGraph
