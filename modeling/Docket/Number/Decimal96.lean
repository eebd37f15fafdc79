import Docket.Number.Dyadic
import Docket.Number.Reading

/-! Decimals with a mantissa of 96 bits and at most 28 places. Reading, rounding and the
passage from and to doubles follow fixed rules; nothing but the last rounding of each is
approximate. -/
namespace Docket

/-- `± mantissa / 10 ^ scale`. -/
structure Decimal96 where
  negative : Bool
  mantissa : Nat
  scale : Nat
deriving DecidableEq

namespace Decimal96

def limit : Nat := twoTo 96

def maxScale : Nat := 28

def neg (d : Decimal96) : Decimal96 := { d with negative := !d.negative }

/-- The value as a rational number over its power of ten, without the sign. -/
def unit (d : Decimal96) : Nat := tenTo d.scale

/-- A mantissa one greater, unless it then needs more bits: then it loses its last place. -/
def roundedUp (m scale : Nat) : Option Decimal96 :=
  if m + 1 < limit then some ⟨false, m + 1, scale⟩
  else if scale = 0 then none
  else some ⟨false, (m + 5) / 10, scale - 1⟩

/-- Digits after the point, taken while there is room for them. The first digit without room rounds
the rest away. -/
def readFraction (m scale : Nat) : List Char → Option Decimal96
  | [] => some ⟨false, m, scale⟩
  | c :: rest =>
    match Reading.digit? c with
    | none => none
    | some d =>
      if scale < maxScale ∧ 10 * m + d < limit then readFraction (10 * m + d) (scale + 1) rest
      else if !rest.all Reading.isDigit then none
      else if 5 ≤ d then roundedUp m scale
      else some ⟨false, m, scale⟩

/-- Digits with at most one point and at least one digit. -/
def read? (text : List Char) : Option Decimal96 :=
  let whole := text.takeWhile Reading.isDigit
  let fraction := match text.dropWhile Reading.isDigit with
    | [] => some []
    | '.' :: ds => some ds
    | _ => none
  match fraction with
  | none => none
  | some ds =>
    if whole = [] ∧ ds = [] then none
    else if limit ≤ Reading.natural whole then none
    else readFraction (Reading.natural whole) 0 ds

/-- All digits with the point in its place. -/
def display (d : Decimal96) : String :=
  let ds := Nat.toDigits 10 d.mantissa
  let padded := List.replicate (d.scale + 1 - ds.length) '0' ++ ds
  let whole := padded.take (padded.length - d.scale)
  let body := if d.scale = 0 then whole else whole ++ '.' :: padded.drop (padded.length - d.scale)
  String.ofList (if d.negative then '-' :: body else body)

/-- Drops zeros at the end of the places. -/
def stripped (m : Nat) : Nat → Nat × Nat
  | 0 => (m, 0)
  | s + 1 => if m % 10 = 0 then stripped (m / 10) s else (m, s + 1)

/-- The most places, nine at most, by which a mantissa can grow. -/
def growth (m scale : Nat) : Nat := go (min 9 (maxScale - scale))
where
  go : Nat → Nat
    | 0 => 0
    | s + 1 => if m * tenTo (s + 1) < limit then s + 1 else go s

/-- A mantissa that has outgrown its bits loses its last place, which is rounded, a tie to even
unless something follows. -/
def fitted (m scale : Nat) (follows : Bool) : Nat × Nat :=
  if m < limit then (m, scale)
  else
    let q := m / 10
    let up := 5 < m % 10 || (m % 10 == 5 && (follows || q % 2 == 1))
    (if up then q + 1 else q, scale - 1)

/-- A quotient by 100 that grows by up to nine places a step, until nothing is left or there is no
room; then it is rounded, a tie to even. -/
def quotient (m rest scale : Nat) : Nat → Nat × Nat
  | 0 => (m, scale)
  | n + 1 =>
    if rest = 0 then (m, scale)
    else
      let s := growth m scale
      let grown := m * tenTo s + rest * tenTo s / 100
      let rest := rest * tenTo s % 100
      if s = 0 then fitted (if 100 < 2 * rest + m % 2 then m + 1 else m) scale true
      else if limit ≤ grown then fitted grown (scale + s) (rest != 0)
      else quotient grown rest (scale + s) n

/-- Takes `n` zeros off the end of the places, if there are as many. -/
def withoutZeros (n : Nat) (p : Nat × Nat) : Nat × Nat :=
  if n ≤ p.2 ∧ p.1 % tenTo n = 0 then (p.1 / tenTo n, p.2 - n) else p

/-- Zeros go by eight while the low 32 bits are clear, and then by four, two and one, once each; so
a few may stay. -/
def lightened (p : Nat × Nat) : Nat × Nat :=
  let eight (p : Nat × Nat) : Nat × Nat := if p.1 % twoTo 32 = 0 then withoutZeros 8 p else p
  withoutZeros 1 (withoutZeros 2 (withoutZeros 4 (eight (eight (eight p)))))

/-- The hundredth part. -/
def hundredth (d : Decimal96) : Decimal96 :=
  if d.mantissa = 0 then ⟨false, 0, 0⟩
  else if d.mantissa % 100 = 0 then { d with mantissa := d.mantissa / 100 }
  else
    let (m, s) := lightened (quotient (d.mantissa / 100) (d.mantissa % 100) d.scale (maxScale + 1))
    ⟨d.negative, m, s⟩

/-- The double of a decimal. With places it is put together from the whole part and the fraction
and rounded to those places once more. -/
def toFloat (d : Decimal96) : Float :=
  if d.scale = 0 then
    if d.mantissa = 0 then 0.0
    else Rounding.whole d.negative d.mantissa
  else
    let whole := Float.ofNat (d.mantissa / d.unit)
    let fraction := Float.ofNat (d.mantissa % d.unit) / Float.ofNat d.unit
    let magnitude :=
      if fraction == 0.0 then whole
      else
        let factor := Rounding.powi 10.0 (Int32.ofNat d.scale)
        Rounding.round ((whole + fraction) * factor) / factor
    if d.negative then -magnitude else magnitude

/-- Turns `m · 2 ^ -n` into a multiple of a power of ten: halves while that is exact or no
multiplication by five fits any more. -/
def fromHalves (m : Nat) (e : Int) : Nat → Nat × Int
  | 0 => (m, e)
  | n + 1 =>
    if m % 2 = 0 then fromHalves (m / 2) (e + 1) n
    else if 5 * m < limit then fromHalves (5 * m) e n
    else fromHalves (m / 2) (e + 1) n

/-- Turns `m · 2 ^ n` into a multiple of a power of ten: doubles while that fits, else divides by
five. -/
def fromDoubles (m : Nat) (e : Int) : Nat → Nat × Int
  | 0 => (m, e)
  | n + 1 =>
    if m < limit / 2 then fromDoubles (2 * m) (e - 1) n
    else fromDoubles (m / 5) e n

/-- Gives up powers of ten by multiplying them in; none if the mantissa overflows. -/
def spread (m : Nat) : Nat → Option Nat
  | 0 => some m
  | n + 1 => if 10 * m < limit then spread (10 * m) n else none

/-- Drops places beyond the last, each drop rounding half up; nothing left is a plain zero. -/
def shortened (m : Nat) : Nat → Option Nat
  | 0 => some m
  | n + 1 =>
    if m / 10 = 0 then none
    else shortened (if 5 ≤ m % 10 then m / 10 + 1 else m / 10) n

/-- Drops places until the mantissa has no more bits than a double, each drop rounding half up. -/
def narrowed (m : Nat) : Nat → Nat × Nat
  | 0 => (m, 0)
  | s + 1 =>
    if m < twoTo 52 then (m, s + 1)
    else narrowed (if 5 ≤ m % 10 then m / 10 + 1 else m / 10) s

/-- A mantissa and the number of its places, from a multiple of a power of ten. -/
def settle (m : Nat) (e : Int) : Option (Nat × Nat) :=
  if 0 ≤ e then (spread m e.toNat).map (·, 0)
  else
    let places := (-e).toNat
    if places ≤ maxScale then some (m, places)
    else match shortened m (places - maxScale) with
      | some m => some (m, maxScale)
      | none => some (0, 0)

/-- The decimal of a finite double, to the precision a double carries. -/
def ofFloat? (x : Float) : Option Decimal96 :=
  match Dyadic.ofFloat? x with
  | none => none
  | some d =>
    if d.significand = 0 then some ⟨d.negative, 0, 0⟩
    else
      let (m, e) :=
        if d.exponent ≤ 0 then fromHalves d.significand d.exponent (-d.exponent).toNat
        else fromDoubles d.significand d.exponent d.exponent.toNat
      match settle m e with
      | none => none
      | some (m, s) =>
        let (m, s) := narrowed m s
        let (m, s) := stripped m s
        some ⟨d.negative && m != 0, m, s⟩

/-- Rounds to decimal places, a half away from zero. -/
def roundTo (d : Decimal96) (places : Nat) : Decimal96 :=
  if d.scale ≤ places then d
  else
    let factor := tenTo (d.scale - places)
    let m := (2 * d.mantissa + factor) / (2 * factor)
    ⟨d.negative && m != 0, m, places⟩

end Decimal96

/-- A double rounded to decimal places by way of its decimal; one without a decimal stays. -/
def roundDecimal (x : Float) (places : Nat) : Float :=
  match Decimal96.ofFloat? x with
  | some d => (d.roundTo places).toFloat
  | none => x

end Docket
