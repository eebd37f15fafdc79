import Docket.Date

/-! Points in time: as nanoseconds on a clock and as date and time of day in text. -/
namespace Docket

/-- Nanoseconds from the start of the year 1970. -/
abbrev Time := Int

def Time.second : Time := 1000000000

/-- A date with a time of day in universal time. -/
structure Timestamp where
  date : Date
  /-- Seconds from midnight. -/
  second : Nat
  /-- Nanoseconds in the second; a leap second goes on to two thousand million. -/
  nanosecond : Nat
deriving DecidableEq

/-- Why a text is no timestamp. -/
inductive TimestampFault
  | outOfRange | impossible | invalid | tooShort | tooLong
deriving DecidableEq

def TimestampFault.message : TimestampFault → String
  | outOfRange => "input is out of range"
  | impossible => "no possible date and time matching input"
  | invalid => "input contains invalid characters"
  | tooShort => "premature end of input"
  | tooLong => "trailing input"

namespace Timestamp

def ofTime (t : Time) : Timestamp :=
  let seconds := t.fdiv Time.second
  ⟨.ofDayNumber (seconds.fdiv 86400), (seconds.fmod 86400).toNat, (t.fmod Time.second).toNat⟩

/-- The part of a second: as few of three, six or nine places as hold it. -/
def fraction (nanos : Nat) : String :=
  if nanos = 0 then ""
  else if nanos % 1000000 = 0 then "." ++ Date.padded 3 (nanos / 1000000)
  else if nanos % 1000 = 0 then "." ++ Date.padded 6 (nanos / 1000)
  else "." ++ Date.padded 9 nanos

/-- Date and time of day. -/
def clockText (t : Timestamp) : String :=
  let extra := t.nanosecond / 1000000000
  t.date.display ++ "T" ++ Date.padded 2 (t.second / 3600) ++ ":" ++
    Date.padded 2 (t.second / 60 % 60) ++ ":" ++ Date.padded 2 (t.second % 60 + extra) ++
    fraction (t.nanosecond % 1000000000)

/-- The form with the letter for universal time. -/
def display (t : Timestamp) : String := t.clockText ++ "Z"

/-- The form with the offset of universal time. -/
def displayOffset (t : Timestamp) : String := t.clockText ++ "+00:00"

/-- Between one digit and as many as `most`; without a limit all that follow. -/
def digits (most : Option Nat) (cs : List Char) : Except TimestampFault (Nat × List Char) :=
  match cs, Date.readDigits most cs with
  | [], _ => .error .tooShort
  | _, none => .error .invalid
  | _, some (n, rest) => if n < twoTo 63 then .ok (n, rest) else .error .outOfRange

/-- Two digits of a range, after white space. -/
def bounded (lo hi : Nat) (cs : List Char) : Except TimestampFault (Nat × List Char) := do
  let (n, rest) ← digits (some 2) (Text.trimStart cs)
  if lo ≤ n ∧ n ≤ hi then .ok (n, rest) else .error .outOfRange

/-- A mark, after white space. -/
def mark (c : Char) (cs : List Char) : Except TimestampFault (List Char) :=
  match Text.trimStart cs with
  | [] => .error .tooShort
  | d :: rest => if d = c then .ok rest else .error .invalid

/-- A year of 32 bits: a sign lifts the limit of four digits. -/
def year (cs : List Char) : Except TimestampFault (Int × List Char) := do
  let (n, rest) ← match Text.trimStart cs with
    | '-' :: rest => (digits none rest).map fun (n, rest) => (-(n : Int), rest)
    | '+' :: rest => (digits none rest).map fun (n, rest) => ((n : Int), rest)
    | rest => (digits (some 4) rest).map fun (n, rest) => ((n : Int), rest)
  if -twoTo 31 ≤ n ∧ n < twoTo 31 then .ok (n, rest) else .error .outOfRange

/-- The nanoseconds behind a point; digits after the ninth do not count. -/
def nanoseconds (cs : List Char) : Except TimestampFault (Nat × List Char) :=
  match cs with
  | '.' :: rest => do
    let (n, behind) ← digits (some 9) rest
    let places := rest.length - behind.length
    .ok (n * tenTo (9 - places), behind.dropWhile Reading.isDigit)
  | _ => .ok (0, cs)

/-- Two characters; one of several bytes alone is as long as two. -/
def pair (cs : List Char) : Except TimestampFault ((Char × Char) × List Char) :=
  match cs with
  | a :: b :: rest => .ok ((a, b), rest)
  | [a] => .error (if 1 < a.utf8Size then .invalid else .tooShort)
  | [] => .error .tooShort

def twoDigits (cs : List Char) : Except TimestampFault (Nat × List Char) := do
  let ((a, b), rest) ← pair cs
  match Reading.digit? a, Reading.digit? b with
  | some a, some b => .ok (a * 10 + b, rest)
  | _, _ => .error .invalid

/-- Hours and minutes of an offset, with colons or white space between them. -/
def offsetParts (cs : List Char) : Except TimestampFault (Int × List Char) := do
  let (hours, rest) ← twoDigits cs
  let (minutes, rest) ← twoDigits (rest.dropWhile fun c => c == ':' || Text.isBlank c)
  if minutes < 60 then .ok ((((hours * 60 + minutes) * 60 : Nat) : Int), rest)
  else .error .outOfRange

/-- Seconds that a place's time is ahead of universal time. -/
def offset (cs : List Char) : Except TimestampFault (Int × List Char) :=
  let zone := (cs.take 3).map Char.toUpper
  if zone = ['U', 'T', 'C'] then .ok (0, cs.drop 3)
  else
    match cs with
    | 'Z' :: rest | 'z' :: rest => .ok (0, rest)
    | '+' :: rest => offsetParts rest
    | '-' :: rest | '−' :: rest => (offsetParts rest).map fun (n, rest) => (-n, rest)
    | [] => .error .tooShort
    | _ => .error .invalid

/-- A local time moved to universal time. -/
def shifted (date : Date) (second : Int) (nanosecond : Nat) : Except TimestampFault Timestamp :=
  let date := Date.ofDayNumber (date.dayNumber + second.fdiv 86400)
  if Date.yearInRange date.year then .ok ⟨date, (second.fmod 86400).toNat, nanosecond⟩
  else .error .impossible

/-- Date, time of day and offset. Between date and time stands a letter T or a space. -/
def read (text : String) : Except TimestampFault Timestamp := do
  let (y, rest) ← year text.toList
  let (m, rest) ← bounded 1 12 (← mark '-' rest)
  let (d, rest) ← bounded 1 31 (← mark '-' rest)
  let rest ← match rest with
    | 'T' :: rest | 't' :: rest | ' ' :: rest => .ok rest
    | [] => .error .tooShort
    | _ => .error .invalid
  let (hour, rest) ← bounded 0 23 rest
  let (minute, rest) ← bounded 0 59 (← mark ':' rest)
  let (second, rest) ← bounded 0 60 (← mark ':' rest)
  let (nanos, rest) ← nanoseconds rest
  let (ahead, rest) ← offset (Text.trimStart rest)
  if !(Text.trimStart rest).isEmpty then .error .tooLong
  match Date.ofParts? y m d with
  | none => .error .outOfRange
  | some date =>
    if ahead.natAbs < 86400 then
      let leap := second / 60
      shifted date ((hour * 60 + minute) * 60 + second - leap - ahead) (leap * 1000000000 + nanos)
    else .error .outOfRange

end Timestamp
end Docket
