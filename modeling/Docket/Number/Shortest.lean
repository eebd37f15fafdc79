import Docket.Number.Dyadic

/-! The shortest decimal that reads back as a given double, and the nearest of those.
For one to seventeen digits the two neighbours of the value on that decimal grid are
tested against the interval of reals that round to it. -/
namespace Docket

/-- `digits · 10 ^ exponent`. -/
structure DecimalText where
  digits : Nat
  exponent : Int
deriving DecidableEq

namespace Shortest

/-- Which of two equally near decimals is taken. -/
inductive Tie
  | up
  | even
deriving DecidableEq

/-- Of `n` and `n + 1`, the one that a value in the middle goes to. -/
def Tie.choose (n : Nat) : Tie → Nat
  | up => n + 1
  | even => n + n % 2

/-- Number of decimal digits; zero has one. -/
def digitCount (n : Nat) : Nat := (Nat.toDigits 10 n).length

/-- Four times the value and the ends of its rounding interval, over one denominator. -/
structure Interval where
  low : Nat
  value : Nat
  high : Nat
  denominator : Nat
  closed : Bool

def interval (d : Dyadic) : Interval :=
  let m := 4 * d.significand
  let gap := if d.significand = twoTo 52 ∧ -1074 < d.exponent then 1 else 2
  let e := d.exponent - 2
  let scale := if 0 ≤ e then twoTo e.toNat else 1
  { low := (m - gap) * scale, value := m * scale, high := (m + 2) * scale
    denominator := if 0 ≤ e then 1 else twoTo (-e).toNat
    closed := d.significand % 2 == 0 }

namespace Interval

/-- Whether `n / unit`, in multiples of `10 ^ k`, rounds to the value. -/
def holds (i : Interval) (n : Nat) (k : Int) : Bool :=
  let left := n * i.denominator * tenTo k.toNat
  let factor := tenTo (-k).toNat
  if i.closed then i.low * factor ≤ left && left ≤ i.high * factor
  else i.low * factor < left && left < i.high * factor

/-- The whole number of multiples of `10 ^ k` below the value, and twice what is left against one
multiple. -/
def below (i : Interval) (k : Int) : Nat × Ordering :=
  let unit := i.denominator * tenTo k.toNat
  let scaled := i.value * tenTo (-k).toNat
  (scaled / unit, Ord.compare (2 * (scaled % unit)) unit)

/-- The multiple of `10 ^ k` nearest to the value among its neighbours that round to it. -/
def candidate (i : Interval) (tie : Tie) (k : Int) : Option Nat :=
  let (n, side) := i.below k
  match i.holds n k && n != 0, i.holds (n + 1) k with
  | true, true => some (if side == .lt then n else if side == .gt then n + 1 else tie.choose n)
  | true, false => some n
  | false, true => some (n + 1)
  | false, false => none

end Interval

/-- The exponent of ten of the first digit of a positive dyadic. -/
def leading (d : Dyadic) : Int :=
  let (n, m) := d.fraction
  (digitCount (n * tenTo 344 / m) : Int) - 345

def strip (n : Nat) (k : Int) : DecimalText :=
  if h : n ≠ 0 ∧ n % 10 = 0 then strip (n / 10) (k + 1) else ⟨n, k⟩
termination_by n
decreasing_by omega

/-- The decimal of a dyadic: the first of the grids with 1, 2, … 17 digits that has a hit. -/
def ofDyadic (tie : Tie) (d : Dyadic) : DecimalText :=
  if d.significand = 0 then ⟨0, 0⟩
  else
    let i := interval d
    let e := leading d
    let hit := (List.range 17).findSome? fun (n : Nat) =>
      (i.candidate tie (e - n)).map fun c => strip c (e - n)
    hit.getD (strip (i.below (e - 16)).1 (e - 16))

end Shortest

/-- How a format writes doubles. -/
structure FloatFormat where
  /-- Exponents of the first digit that are written without an exponent mark. -/
  positional : Int → Bool
  /-- Whether a whole number keeps a fractional zero. -/
  keepsPoint : Bool
  tie : Shortest.Tie
  infinite : String
  notNumber : String

namespace FloatFormat

def zeros (n : Nat) : List Char := List.replicate n '0'

def digitsOf (n : Nat) : List Char := Nat.toDigits 10 n

/-- Digits with the point placed by the exponent. -/
def place (t : DecimalText) (keepsPoint : Bool) : List Char :=
  let ds := digitsOf t.digits
  if 0 ≤ t.exponent then
    ds ++ zeros t.exponent.toNat ++ (if keepsPoint then ['.', '0'] else [])
  else
    let after := (-t.exponent).toNat
    if after < ds.length then
      ds.take (ds.length - after) ++ '.' :: ds.drop (ds.length - after)
    else '0' :: '.' :: zeros (after - ds.length) ++ ds

/-- Digits with an explicit exponent: one digit, the point, the rest, the mark with its sign. -/
def mark (t : DecimalText) : List Char :=
  let ds := digitsOf t.digits
  let e := t.exponent + (ds.length - 1)
  let head := match ds with
    | [d] => [d]
    | d :: rest => d :: '.' :: rest
    | [] => []
  head ++ 'e' :: (if e < 0 then '-' else '+') :: digitsOf e.natAbs

def magnitude (f : FloatFormat) (t : DecimalText) : List Char :=
  if t.digits = 0 then place ⟨0, 0⟩ f.keepsPoint
  else if f.positional (t.exponent + ((digitsOf t.digits).length - 1)) then place t f.keepsPoint
  else mark t

def write (f : FloatFormat) (x : Float) : String :=
  match Dyadic.ofFloat? x with
  | none => if x.isNaN then f.notNumber else if x < 0 then "-" ++ f.infinite else f.infinite
  | some d =>
    let text := f.magnitude (Shortest.ofDyadic f.tie d)
    String.ofList (if d.negative then '-' :: text else text)

end FloatFormat

/-- Numbers in running text have no exponent and no idle point; ties go up. -/
def FloatFormat.plain : FloatFormat := ⟨fun _ => true, false, .up, "inf", "NaN"⟩

/-- Numbers in records keep a point and use an exponent below `1e-5` and from `1e16` on; ties go to
the even digit. -/
def FloatFormat.record : FloatFormat :=
  ⟨fun e => -5 ≤ e && e ≤ 15, true, .even, "null", "null"⟩

/-- Fixed places: the exact binary value rounded half to even. -/
def fixedPlaces (x : Float) (places : Nat) : String :=
  match Dyadic.ofFloat? x with
  | none => FloatFormat.plain.write x
  | some d =>
    let (n, m) := d.fraction
    let scaled := n * tenTo places
    let q := scaled / m
    let twice := 2 * (scaled % m)
    let r := if twice < m then q else if m < twice then q + 1 else q + q % 2
    let ds := Nat.toDigits 10 r
    let padded := FloatFormat.zeros (places + 1 - ds.length) ++ ds
    let whole := padded.take (padded.length - places)
    let body := if places = 0 then whole else whole ++ '.' :: padded.drop (padded.length - places)
    String.ofList (if d.negative then '-' :: body else body)

instance : Scalar Float where
  zero := 0.0
  one := 1.0
  decLt := fun a b => inferInstanceAs (Decidable (a < b))
  decLe := fun a b => inferInstanceAs (Decidable (a ≤ b))
  ofNat := Float.ofNat
  abs := Float.abs
  sqrt := Float.sqrt
  nearest := Rounding.nearest
  order := fun a b => Ord.compare (Dyadic.orderKey a) (Dyadic.orderKey b)
  twoPlaces := fun x => fixedPlaces x 2

end Docket
