import Docket.Scalar

/-! A finite double is a signed natural times a power of two. Whole-number
rounding, remainder and comparison by bits are exact on that form. -/
namespace Docket

/-- Two to a power: how many values so many bits have. -/
def twoTo (n : Nat) : Nat := Nat.pow 2 n

/-- Ten to a power: how many values so many decimal digits have. -/
def tenTo (n : Nat) : Nat := Nat.pow 10 n

/-- `± significand · 2 ^ exponent`. -/
structure Dyadic where
  negative : Bool
  significand : Nat
  exponent : Int

namespace Dyadic

/-- The dyadic a finite double stands for. -/
def ofFloat? (x : Float) : Option Dyadic :=
  let bits := x.toBits
  let field := ((bits >>> 52) &&& 0x7FF).toNat
  let fraction := (bits &&& 0xFFFFFFFFFFFFF).toNat
  let negative := bits >>> 63 == 1
  if field == 0x7FF then none
  else if field == 0 then some ⟨negative, fraction, -1074⟩
  else some ⟨negative, fraction + twoTo 52, (field : Int) - 1075⟩

/-- A power of two in the range of doubles, subnormals included. -/
def powerOfTwo (e : Int) : Float :=
  if e < -1022 then Float.ofBits (1 <<< (e + 1074).toNat.toUInt64)
  else Float.ofBits ((e + 1023).toNat.toUInt64 <<< 52)

/-- The double of a dyadic that is one. -/
def toFloat (d : Dyadic) : Float :=
  let magnitude :=
    if d.significand = 0 then 0 else Float.ofNat d.significand * powerOfTwo d.exponent
  if d.negative then -magnitude else magnitude

/-- The magnitude over the power of two `2 ^ e`, for `e` at most the exponent. -/
def scaledTo (d : Dyadic) (e : Int) : Nat := d.significand * twoTo (d.exponent - e).toNat

/-- Numerator and denominator of the magnitude. -/
def fraction (d : Dyadic) : Nat × Nat :=
  if 0 ≤ d.exponent then (d.significand * twoTo d.exponent.toNat, 1)
  else (d.significand, twoTo (-d.exponent).toNat)

/-- The magnitude without its fractional part. -/
def truncated (d : Dyadic) : Nat := d.fraction.1 / d.fraction.2

/-- The magnitude rounded to a whole number, a half upwards. -/
def rounded (d : Dyadic) : Nat := (2 * d.fraction.1 + d.fraction.2) / (2 * d.fraction.2)

/-- The magnitude rounded up. -/
def raised (d : Dyadic) : Nat := (d.fraction.1 + d.fraction.2 - 1) / d.fraction.2

def signed (negative : Bool) (n : Nat) : Int := if negative then -(n : Int) else n

end Dyadic

namespace Rounding

/-- A whole number of at most 53 bits with the sign of the value it came from. -/
def whole (negative : Bool) (n : Nat) : Float :=
  if negative then -Float.ofNat n else Float.ofNat n

/-- From `2 ^ 52` on every double is whole, so rounding leaves it as it is. -/
def through (f : Dyadic → Nat) (x : Float) : Float :=
  match Dyadic.ofFloat? x with
  | none => x
  | some d => if 0 ≤ d.exponent then x else whole d.negative (f d)

/-- A half goes away from zero. -/
def round : Float → Float := through Dyadic.rounded

def trunc : Float → Float := through Dyadic.truncated

def floor : Float → Float := through fun d => if d.negative then d.raised else d.truncated

def ceil : Float → Float := through fun d => if d.negative then d.truncated else d.raised

/-- Limits an integer to `lo … hi`. -/
def clamp (lo hi n : Int) : Int := if n < lo then lo else if hi < n then hi else n

/-- A double as an integer of the range `lo … hi`: infinities go to the ends, no number to 0. -/
def toRange (lo hi : Int) (f : Dyadic → Nat) (x : Float) : Int :=
  match Dyadic.ofFloat? x with
  | some d => clamp lo hi (Dyadic.signed d.negative (f d))
  | none => if x.isNaN then 0 else if x < 0 then lo else hi

/-- The whole part within 32 bits. -/
def toInt32 (x : Float) : Int32 :=
  Int32.ofInt (toRange (-twoTo 31) (twoTo 31 - 1) Dyadic.truncated x)

/-- The nearest integer within 64 bits. -/
def nearest (x : Float) : Int := toRange (-twoTo 63) (twoTo 63 - 1) Dyadic.rounded x

/-- The remainder of the truncated quotient; it has the sign of the dividend. -/
def remainder (a b : Float) : Float :=
  match Dyadic.ofFloat? a, Dyadic.ofFloat? b with
  | some x, some y =>
    if y.significand = 0 then (0.0 / 0.0)
    else
      let e := if x.exponent ≤ y.exponent then x.exponent else y.exponent
      Dyadic.toFloat ⟨x.negative, x.scaledTo e % y.scaledTo e, e⟩
  | some _, none => if b.isNaN then b else a
  | none, _ => (0.0 / 0.0)

/-- Powers by repeated squaring: the low bit of the exponent first, a negative exponent
inverted at the end. -/
def powi (base : Float) (exponent : Int32) : Float :=
  let magnitude := exponent.toInt.natAbs
  let power := go base 1.0 magnitude
  if exponent < 0 then 1.0 / power else power
where
  go (a r : Float) (n : Nat) : Float :=
    if n = 0 then r
    else
      let r := if n % 2 = 1 then r * a else r
      if n / 2 = 0 then r else go (a * a) r (n / 2)
  termination_by n
  decreasing_by omega

end Rounding

/-- The order of all doubles by their bits: negative ones first, then positive ones, each side by
magnitude. -/
def Dyadic.orderKey (x : Float) : Int :=
  let bits := x.toBits.toNat
  if bits < twoTo 63 then bits else (twoTo 63 : Int) - 1 - bits

end Docket
