/-! Numbers that page geometry is written over. The program runs at `Float`; a
statement about exact arithmetic reads the same definitions at an ordered field. -/
namespace Docket

/-- Arithmetic, comparison and rounding of page measures. -/
class Scalar (α : Type) extends Zero α, One α, Add α, Sub α, Mul α, Div α, Neg α, LT α, LE α,
    BEq α where
  decLt : DecidableLT α
  decLe : DecidableLE α
  ofNat : Nat → α
  abs : α → α
  sqrt : α → α
  /-- The nearest integer, a half going away from zero. -/
  nearest : α → Int
  /-- A total order that agrees with `<` where `<` decides. -/
  order : α → α → Ordering
  /-- The value in decimal with two places. -/
  twoPlaces : α → String

attribute [reducible, instance] Scalar.decLt Scalar.decLe

namespace Scalar

variable {α : Type} [Scalar α]

/-- A value that differs from itself is no number. -/
def isNumber (a : α) : Bool := a == a

/-- The lesser of two values; the second where they tie, the number where one is none. -/
def min (a b : α) : α :=
  if isNumber b then (if a < b then a else b) else a

/-- The greater of two values; the second where they tie, the number where one is none. -/
def max (a b : α) : α :=
  if isNumber b then (if b < a then a else b) else a

def two : α := ofNat 2

/-- `n / d`, for the decimal fractions of the rules. -/
def ratio (n d : Nat) : α := ofNat n / ofNat d

/-- Compares by `<` and takes values it leaves incomparable as equal. -/
def compare (a b : α) : Ordering :=
  if a < b then .lt else if b < a then .gt else .eq

/-- A sum starts from the negative zero, which leaves every first term as it is. -/
def sum (xs : List α) : α := xs.foldl (· + ·) (-0)

def square (a : α) : α := a * a

end Scalar
end Docket
