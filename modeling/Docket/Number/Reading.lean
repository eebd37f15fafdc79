import Docket.Number.Dyadic

/-! Numbers read from text. A decimal is read exactly and rounded once; a number of a
record is assembled from a 64-bit significand and a power of ten. -/
namespace Docket.Reading

def digit? (c : Char) : Option Nat :=
  if '0' ≤ c ∧ c ≤ '9' then some (c.toNat - '0'.toNat) else none

def isDigit (c : Char) : Bool := '0' ≤ c && c ≤ '9'

/-- The natural number a run of ASCII digits writes. -/
def natural (ds : List Char) : Nat := ds.foldl (fun n c => 10 * n + (c.toNat - '0'.toNat)) 0

/-- A nonempty run of ASCII digits. -/
def natural? (ds : List Char) : Option Nat :=
  if ds ≠ [] ∧ ds.all isDigit then some (natural ds) else none

/-- A natural number below `limit`; one leading plus sign is accepted. -/
def unsigned? (limit : Nat) (text : List Char) : Option Nat :=
  let ds := match text with
    | '+' :: rest => rest
    | _ => text
  (natural? ds).filter (· < limit)

/-- `n · 10 ^ e` rounded once, without forming powers beyond the range of doubles. -/
def scientific (n : Nat) (e : Int) : Float :=
  let size := (Nat.toDigits 10 n).length
  if n = 0 then 0.0
  else if 310 < e + size then 1.0 / 0.0
  else if e + size < -330 then 0.0
  else if 0 ≤ e then Float.ofScientific n false e.toNat
  else Float.ofScientific n true (-e).toNat

def exponent? : List Char → Option Int
  | '+' :: ds => (natural? ds).map fun n => (n : Int)
  | '-' :: ds => (natural? ds).map fun n => -(n : Int)
  | ds => (natural? ds).map fun n => (n : Int)

def isMark (c : Char) : Bool := c == 'e' || c == 'E'

/-- Digits with at most one point and an optional exponent; at least one digit is needed. -/
def magnitude? (text : List Char) : Option Float :=
  let body := text.takeWhile (!isMark ·)
  let tail := text.dropWhile (!isMark ·)
  let whole := body.takeWhile isDigit
  let fraction := match body.dropWhile isDigit with
    | [] => some []
    | '.' :: ds => if ds.all isDigit then some ds else none
    | _ => none
  let power := match tail with
    | [] => some 0
    | _ :: e => exponent? e
  match fraction, power with
  | some ds, some e =>
    if whole = [] ∧ ds = [] then none
    else some (scientific (natural (whole ++ ds)) (e - ds.length))
  | _, _ => none

/-- The words for values that are not finite, in any ASCII case. -/
def word? (text : List Char) : Option Float :=
  let w := String.ofList (text.map Char.toLower)
  if w == "inf" || w == "infinity" then some (1.0 / 0.0)
  else if w == "nan" then some (0.0 / 0.0)
  else none

/-- A double in decimal notation with an optional sign, or the word for an infinity or for no
number. -/
def float? (text : List Char) : Option Float :=
  let unsigned (t : List Char) := (word? t).or (magnitude? t)
  match text with
  | '-' :: rest => (unsigned rest).map (- ·)
  | '+' :: rest => unsigned rest
  | _ => unsigned text

/-- The double nearest to a power of ten. -/
def powerOfTen (n : Nat) : Float := Float.ofScientific 1 false n

/-- `significand · 10 ^ exponent` in double steps: one product or quotient by a power of ten up to
`10 ^ 308`, after dividing by `10 ^ 308` as long as the exponent is below that. Beyond the largest
double there is none. -/
def assembled (significand : Nat) (exponent : Int) : Option Float :=
  go (Float.ofNat significand) exponent ((-exponent).toNat / 308 + 1)
where
  go (f : Float) (e : Int) : Nat → Option Float
    | 0 => some f
    | n + 1 =>
      if e.natAbs ≤ 308 then
        if 0 ≤ e then
          let r := f * powerOfTen e.toNat
          if r.isInf then none else some r
        else some (f / powerOfTen (-e).toNat)
      else if f == 0.0 then some f
      else if 0 ≤ e then none
      else go (f / powerOfTen 308) (e + 308) n

end Docket.Reading
