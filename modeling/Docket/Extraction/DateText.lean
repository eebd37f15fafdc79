import Docket.Date

/-! Dates in running text: three numerals at word boundaries, joined by dashes, slashes
or points. Year-first dates are looked for first; others are read day-first and, where
the calendar has no such day, month-first. -/
namespace Docket.DateText

def isJoint (c : Char) : Bool := c == '-' || c == '/' || c == '.'

/-- At least `lo` and at most `hi` digits, as many as there are. -/
def digits (lo hi : Nat) (cs : List Char) : Option (List Char × List Char) :=
  let ds := (cs.takeWhile Text.isDecimalDigit).take hi
  if lo ≤ ds.length then some (ds, cs.drop ds.length) else none

def joint : List Char → Option (List Char)
  | c :: rest => if isJoint c then some rest else none
  | [] => none

/-- Whether a word ends before this text. -/
def atBoundary (rest : List Char) : Bool :=
  match rest with
  | c :: _ => !Text.isWordChar c
  | [] => true

/-- Three joined numerals and the text behind them. -/
structure Triple where
  first : List Char
  second : List Char
  third : List Char
  rest : List Char

/-- Numerals of the given lengths at the front, ending at a word boundary. -/
def triple? (a b c : Nat × Nat) (cs : List Char) : Option Triple := do
  let (x, rest) ← digits a.1 a.2 cs
  let rest ← joint rest
  let (y, rest) ← digits b.1 b.2 rest
  let rest ← joint rest
  let (z, rest) ← digits c.1 c.2 rest
  if atBoundary rest then some ⟨x, y, z, rest⟩ else none

/-- All triples from the left that do not overlap; `inWord` tells whether the text follows a
character of a word. -/
def triples (a b c : Nat × Nat) (inWord : Bool) (cs : List Char) : List Triple :=
  go cs.length inWord cs
where
  go : Nat → Bool → List Char → List Triple
    | 0, _, _ => []
    | fuel + 1, inWord, cs =>
      match (if inWord then none else triple? a b c cs) with
      | some t => t :: go fuel true t.rest
      | none =>
        match cs with
        | [] => []
        | ch :: rest => go fuel (Text.isWordChar ch) rest

/-- A numeral of ASCII digits; others count as zero. -/
def value (ds : List Char) : Nat := (Reading.natural? ds).getD 0

def yearFirst? (t : Triple) : Option Date :=
  Date.ofParts? (value t.first) (value t.second) (value t.third)

def dayFirst? (t : Triple) : Option Date :=
  Date.ofParts? (value t.third) (value t.second) (value t.first)

def monthFirst? (t : Triple) : Option Date :=
  Date.ofParts? (value t.third) (value t.first) (value t.second)

/-- The first date of a text. -/
def first? (text : String) : Option Date :=
  let cs := text.toList
  let short := (1, 2)
  let year := (4, 4)
  ((triples year short short false cs).findSome? yearFirst?).or
    ((triples short short year false cs).findSome? fun t => (dayFirst? t).or (monthFirst? t))

end Docket.DateText
