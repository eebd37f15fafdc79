import Mathlib
import Docket.Scalar

/-! Page measures in an ordered field, where arithmetic is exact. Square roots are left open: what
is proved holds for any choice of them, unless it says that they are exact, as those of the reals
are. -/

/-- An ordered field with whole parts and a stand-in for square roots. -/
class ExactNumber (K : Type) extends
    Field K, LinearOrder K, IsStrictOrderedRing K, FloorRing K where
  root : K → K

/-- The stand-in gives the square roots. -/
class ExactRoots (K : Type) [ExactNumber K] : Prop where
  root_nonneg : ∀ x : K, 0 ≤ x → 0 ≤ ExactNumber.root x
  root_mul_root : ∀ x : K, 0 ≤ x → ExactNumber.root x * ExactNumber.root x = x

noncomputable instance : ExactNumber ℝ where
  root := Real.sqrt

instance : ExactRoots ℝ where
  root_nonneg x _ := x.sqrt_nonneg
  root_mul_root _ := Real.mul_self_sqrt

namespace Docket.Exact

variable {K : Type} [ExactNumber K]

def nearest (x : K) : Int := if x < 0 then -⌊-x + 1 / 2⌋ else ⌊x + 1 / 2⌋

/-- The magnitude in hundredths, a half going to the even one. -/
def hundredths (x : K) : Nat :=
  let n := ⌊|x| * 100⌋.natAbs
  let left := 2 * (|x| * 100 - n)
  if left < 1 then n else if 1 < left then n + 1 else n + n % 2

def twoPlaces (x : K) : String :=
  let n := hundredths x
  let sign := if x < 0 then "-" else ""
  s!"{sign}{n / 100}.{n % 100 / 10}{n % 10}"

instance scalar : Scalar K where
  beq := fun a b => decide (a = b)
  decLt := inferInstance
  decLe := inferInstance
  ofNat := Nat.cast
  abs := abs
  sqrt := ExactNumber.root
  nearest := nearest
  order := fun a b => if a < b then .lt else if b < a then .gt else .eq
  twoPlaces := twoPlaces

theorem ofNat_eq (n : Nat) : (Scalar.ofNat n : K) = n := rfl

theorem two_eq : (Scalar.two : K) = 2 := by
  simp [Scalar.two, ofNat_eq]

theorem sum_eq (xs : List K) : Scalar.sum xs = xs.sum := by
  rw [List.sum_eq_foldl]
  simp [Scalar.sum]

theorem max_eq (a b : K) : Scalar.max a b = max a b := by
  have number : Scalar.isNumber b = true := decide_eq_true (rfl : b = b)
  rw [Scalar.max, if_pos number]
  split
  · rename_i less
    exact (max_eq_left (le_of_lt less)).symm
  · rename_i not_less
    exact (max_eq_right (not_lt.mp not_less)).symm

theorem min_eq (a b : K) : Scalar.min a b = min a b := by
  have number : Scalar.isNumber b = true := decide_eq_true (rfl : b = b)
  rw [Scalar.min, if_pos number]
  split
  · rename_i less
    exact (min_eq_left (le_of_lt less)).symm
  · rename_i not_less
    exact (min_eq_right (not_lt.mp not_less)).symm

end Docket.Exact
