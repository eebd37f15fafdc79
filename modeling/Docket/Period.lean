import Docket.Path
import Docket.Text.Class
import Docket.Timestamp

/-! Periods: the month that a document reports on, read from its file name. -/
namespace Docket

structure Period where
  year : Int
  month : Nat
deriving DecidableEq

namespace Period

def ofParts? (year : Int) (month : Nat) : Option Period :=
  if 1900 ≤ year ∧ year ≤ 2999 ∧ 1 ≤ month ∧ month ≤ 12 then some ⟨year, month⟩ else none

/-- The month of a point in time. -/
def ofTime (t : Time) : Period :=
  let date := (Timestamp.ofTime t).date
  ⟨date.year, date.month⟩

def yearText (year : Int) : String :=
  if year < 0 then "-" ++ Date.padded 3 year.natAbs else Date.padded 4 year.toNat

def display (p : Period) : String := yearText p.year ++ "-" ++ Date.padded 2 p.month

/-- How a name writes a period. -/
inductive Form
  /-- Year and month around a dash or underscore. -/
  | yearMonth
  /-- Year and month side by side. -/
  | compact
  /-- Month and year around a dash. -/
  | monthYear

/-- Exactly `n` digits of any script. -/
def digits? (n : Nat) (cs : List Char) : Option (List Char × List Char) :=
  let ds := cs.take n
  if ds.length = n ∧ ds.all Text.isDecimalDigit then some (ds, cs.drop n) else none

def mark? (marks : List Char) : List Char → Option (List Char)
  | c :: rest => if marks.contains c then some rest else none
  | [] => none

/-- The digits of year and month, and the text behind them. -/
def Form.read? (form : Form) (cs : List Char) : Option ((List Char × List Char) × List Char) := do
  match form with
  | .yearMonth =>
    let (y, rest) ← digits? 4 cs
    let (m, rest) ← digits? 2 (← mark? ['-', '_'] rest)
    return ((y, m), rest)
  | .compact =>
    let (y, rest) ← digits? 4 cs
    let (m, rest) ← digits? 2 rest
    return ((y, m), rest)
  | .monthYear =>
    let (m, rest) ← digits? 2 cs
    let (y, rest) ← digits? 4 (← mark? ['-'] rest)
    return ((y, m), rest)

/-- The form with no digit behind it; the text left starts after the character that ends it. -/
def Form.closed? (form : Form) (cs : List Char) : Option ((List Char × List Char) × List Char) :=
  match form.read? cs with
  | some (found, []) => some (found, [])
  | some (found, c :: rest) => if Text.isDecimalDigit c then none else some (found, rest)
  | none => none

/-- The form here: at the start of the text or behind a character that is no digit. -/
def Form.at? (form : Form) (atStart : Bool) (cs : List Char) :
    Option ((List Char × List Char) × List Char) :=
  match if atStart then form.closed? cs else none with
  | some found => some found
  | none =>
    match cs with
    | c :: rest => if Text.isDecimalDigit c then none else form.closed? rest
    | [] => none

/-- All places where the form stands, from the left; none shares a character with the next. The
number tells how many characters belong to the one before. -/
def Form.places (form : Form) : Bool → Nat → List Char → List (List Char × List Char)
  | _, _, [] => []
  | _, n + 1, _ :: rest => form.places false n rest
  | atStart, 0, c :: rest =>
    match form.at? atStart (c :: rest) with
    | some (found, behind) => found :: form.places false (rest.length - behind.length) rest
    | none => form.places false 0 rest

/-- The period that digits write. -/
def ofDigits? (year month : List Char) : Option Period := do
  ofParts? (← Reading.natural? year) (← Reading.natural? month)

/-- The first place of a form whose digits are a period. -/
def Form.first? (form : Form) (name : List Char) : Option Period :=
  (form.places true 0 name).findSome? fun (year, month) => ofDigits? year month

/-- The period in a file name without its ending. -/
def ofFileName? (fileName : String) : Option Period :=
  let name := ((Path.stem? fileName).getD fileName).toList
  [Form.yearMonth, .compact, .monthYear].findSome? (·.first? name)

end Period
end Docket
