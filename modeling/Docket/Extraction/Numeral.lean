import Docket.Number.Decimal96
import Docket.Text.Class

/-! Numerals in running text. Thousands are grouped by a no-break space, point, comma or
apostrophe; a point or comma may open the fraction. Of the readings at one place the
grouped ones come first, longer before shorter. -/
namespace Docket.Numeral

def isGroupMark (c : Char) : Bool :=
  c == '\u00a0' || c == '\u202f' || c == '.' || c == ',' || c == '\''

def isFractionMark (c : Char) : Bool := c == '.' || c == ','

def isMinus (c : Char) : Bool := c == '-' || c == '\u2212'

/-- A numeral and the text behind it. -/
structure Reading where
  text : List Char
  rest : List Char
deriving DecidableEq

/-- A group mark with three digits. -/
def group? : List Char → Option (List Char × List Char)
  | mark :: a :: b :: c :: rest =>
    if isGroupMark mark && [a, b, c].all Text.isDecimalDigit then some ([mark, a, b, c], rest)
    else none
  | _ => none

/-- A mark with the digits of a fraction. -/
def fraction? : List Char → Option (List Char × List Char)
  | mark :: rest =>
    let ds := rest.takeWhile Text.isDecimalDigit
    if isFractionMark mark && !ds.isEmpty then some (mark :: ds, rest.drop ds.length) else none
  | [] => none

/-- With a fraction if there is one, and without. -/
def withFraction (text rest : List Char) : List Reading :=
  match fraction? rest with
  | some (f, behind) => [⟨text ++ f, behind⟩, ⟨text, rest⟩]
  | none => [⟨text, rest⟩]

/-- Readings with at least one more group. -/
def grouped : Nat → List Char → List Char → List Reading
  | 0, _, _ => []
  | n + 1, text, rest =>
    match group? rest with
    | some (g, behind) => grouped n (text ++ g) behind ++ withFraction (text ++ g) behind
    | none => []

/-- All readings of a numeral at the front, the preferred one first. -/
def readings (cs : List Char) : List Reading :=
  let run := cs.takeWhile Text.isDecimalDigit
  let rest := cs.drop run.length
  if run.isEmpty then []
  else (if run.length ≤ 3 then grouped rest.length run rest else []) ++ withFraction run rest

/-- A minus sign with white space behind it, if there is one. -/
def skipSign (cs : List Char) : Bool × List Char :=
  match cs with
  | c :: rest => if isMinus c then (true, rest.dropWhile Text.isBlank) else (false, cs)
  | [] => (false, [])

/-- A numeral found in a text. -/
structure Found where
  negative : Bool
  text : List Char
deriving DecidableEq

/-- A numeral at the front, in parentheses or with a sign; parentheses on both sides negate. -/
def number? (cs : List Char) : Option Found :=
  let (opened, body) := match cs with
    | '(' :: rest => (true, rest)
    | _ => (false, cs)
  let (signed, body) := skipSign body
  (readings body).head?.map fun r =>
    let closed := r.rest.head? == some ')'
    ⟨signed || (opened && closed), r.text⟩

/-- Whether a percent sign follows, after white space. -/
def percentFollows (rest : List Char) : Bool :=
  (rest.dropWhile Text.isBlank).head? == some '%'

/-- A numeral at the front that a percent sign follows. -/
def percentage? (cs : List Char) : Option Found :=
  let (signed, body) := skipSign cs
  ((readings body).find? fun r => percentFollows r.rest).map fun r => ⟨signed, r.text⟩

/-- The first place where `f` finds something. -/
def first? {α : Type} (f : List Char → Option α) : List Char → Option α
  | [] => f []
  | c :: rest => (f (c :: rest)).or (first? f rest)

def without (c : Char) (cs : List Char) : List Char := cs.filter (· != c)

def replace (a b : Char) (cs : List Char) : List Char := cs.map fun c => if c = a then b else c

/-- The place of the last `c`. -/
def lastIndex? (c : Char) (cs : List Char) : Option Nat :=
  (cs.reverse.findIdx? (· == c)).map fun i => cs.length - 1 - i

/-- Which mark is the decimal point. Of two kinds it is the one that comes last. A single comma is
one unless three digits follow and something other than a lone zero stands before it; points are one
only if there is no second. -/
def withPoint (cs : List Char) : List Char :=
  match lastIndex? ',' cs, lastIndex? '.' cs with
  | some c, some d =>
    if d < c then replace ',' '.' (without '.' cs) else without ',' cs
  | some c, none =>
    let single := cs.count ',' == 1
    if single && (cs.length - c - 1 != 3 || ['0', ','].isPrefixOf cs) then replace ',' '.' cs
    else without ',' cs
  | none, some _ => if 1 < cs.count '.' then without '.' cs else cs
  | none, none => cs

def isNumeralChar (c : Char) : Bool := Docket.Reading.isDigit c || c == ',' || c == '.'

/-- The decimal of a numeral. -/
def value? (cs : List Char) : Option Decimal96 :=
  Decimal96.read? (withPoint (cs.filter isNumeralChar))

def Found.value? (f : Found) : Option Decimal96 :=
  (Numeral.value? f.text).map fun d => if f.negative then d.neg else d

/-- The first number of a text. -/
def firstNumber? (text : String) : Option Float :=
  (first? number? text.toList).bind fun f => f.value?.map Decimal96.toFloat

/-- The first percentage of a text, as a fraction. -/
def firstPercentage? (text : String) : Option Float :=
  (first? percentage? text.toList).bind fun f => f.value?.map fun d => d.hundredth.toFloat

/-- A percentage as a fraction, otherwise the first number. -/
def firstValue? (text : String) : Option Float :=
  (firstPercentage? text).or (firstNumber? text)

end Docket.Numeral
