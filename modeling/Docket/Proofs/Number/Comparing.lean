import Docket.Proofs.Number.Sign

/-! Doubles compared by size. All but the values that are no number lie in a row, by sign, exponent
and mantissa, and `<` follows it. What is no number comes of one that is none, as far as distances are
concerned: differences from finite values, squares, their sums and the roots of these. -/
namespace Docket.Double

open Float.Model UnpackedFloat

/-- The place in the row of all numbers: its part, then the exponent, then the mantissa. -/
def rank : UnpackedFloat → ℤ ×ₗ ℤ ×ₗ ℤ
  | .notANumber => toLex (0, toLex (0, 0))
  | .infinity .negative => toLex (-2, toLex (0, 0))
  | .finite .negative m e _ => toLex (-1, toLex (-e, -(m : ℤ)))
  | .zero _ => toLex (0, toLex (0, 0))
  | .finite .positive m e _ => toLex (1, toLex (e, (m : ℤ)))
  | .infinity .positive => toLex (2, toLex (0, 0))

theorem then_eq_lt {a b : Int} {m n : Nat} :
    (Ord.compare a b).then (Ord.compare m n) = .lt ↔ a < b ∨ a = b ∧ m < n := by
  rw [Ordering.then_eq_lt, compare_lt_iff_lt, compare_eq_iff_eq, compare_lt_iff_lt]

theorem then_eq_gt {a b : Int} {m n : Nat} :
    (Ord.compare a b).then (Ord.compare m n) = .gt ↔ b < a ∨ a = b ∧ n < m := by
  rw [Ordering.then_eq_gt, compare_gt_iff_gt, compare_eq_iff_eq, compare_gt_iff_gt]

theorem lt_unpacked_iff (u v : UnpackedFloat) :
    u.lt v = true ↔ u.isNaN = false ∧ v.isNaN = false ∧ rank u < rank v := by
  have signs : Ord.compare Sign.negative Sign.positive = .lt := rfl
  rcases u with ⟨⟨⟩⟩ | _ | _ | ⟨⟨⟩, m, e, _⟩ <;> rcases v with ⟨⟨⟩⟩ | _ | _ | ⟨⟨⟩, n, f, _⟩ <;>
    simp [UnpackedFloat.lt, UnpackedFloat.compare, UnpackedFloat.isNaN, rank,
      Prod.Lex.toLex_lt_toLex, then_eq_lt, then_eq_gt, signs]

theorem le_unpacked_iff (u v : UnpackedFloat) :
    u.le v = true ↔ u.isNaN = false ∧ v.isNaN = false ∧ rank u ≤ rank v := by
  have below {a b : Int} {m n : Nat} :
      ((Ord.compare a b).then (Ord.compare m n)).isLE = true ↔ a < b ∨ a = b ∧ m ≤ n := by
    rw [Ordering.isLE_iff_ne_gt, then_eq_gt]
    omega
  have above {a b : Int} {m n : Nat} :
      ((Ord.compare a b).then (Ord.compare m n)).isGE = true ↔ b < a ∨ a = b ∧ n ≤ m := by
    rw [Ordering.isGE_iff_ne_lt, then_eq_lt]
    omega
  rcases u with ⟨⟨⟩⟩ | _ | _ | ⟨⟨⟩, m, e, _⟩ <;> rcases v with ⟨⟨⟩⟩ | _ | _ | ⟨⟨⟩, n, f, _⟩ <;>
    simp [UnpackedFloat.le, UnpackedFloat.compare, UnpackedFloat.isNaN, rank,
      Prod.Lex.toLex_le_toLex, below, above] <;>
    rfl

theorem beq_unpacked_iff (u v : UnpackedFloat) :
    u.beq v = true ↔ u.isNaN = false ∧ v.isNaN = false ∧ rank u = rank v := by
  rcases u with ⟨⟨⟩⟩ | _ | _ | ⟨⟨⟩, m, e, _⟩ <;> rcases v with ⟨⟨⟩⟩ | _ | _ | ⟨⟨⟩, n, f, _⟩ <;>
    simp [UnpackedFloat.beq, UnpackedFloat.compare, UnpackedFloat.isNaN, rank] <;>
    rfl

/-- Less than zero. -/
def isBelow : UnpackedFloat → Bool
  | .infinity .negative | .finite .negative .. => true
  | _ => false

theorem isNaN_unpack_bits (s : Sign) (e : BitVec 11) (m : BitVec 52) :
    (UnpackedFloat.unpack .binary64 (bits s e m)).isNaN = decide (e = -1#11 ∧ m ≠ 0#52) := by
  rw [UnpackedFloat.unpack]
  simp only [bits, unpackMantissa_packComponents, unpackExponent_packComponents]
  split
  · split <;> simp_all [UnpackedFloat.isNaN]
  · split
    · split <;> simp_all [UnpackedFloat.isNaN]
    · simp_all [UnpackedFloat.isNaN]

theorem isBelow_unpack_bits {s : Sign} {e : BitVec 11} {m : BitVec 52}
    (below : isBelow (UnpackedFloat.unpack .binary64 (bits s e m)) = true) : s = .negative := by
  rw [← signed_unpack] at below
  cases s with
  | negative => rfl
  | positive => cases told : UnpackedFloat.unpack .binary64 (bits .positive e m) <;>
      simp [told, signed, isBelow] at below

/-- A finite value is packed into bits of its sign that stand for a number. -/
theorem pack_finite (s : Sign) (m : Nat) (e : Int) (positive : 0 < m) :
    ∃ f g, UnpackedFloat.pack .binary64 (.finite s m e positive) = bits s f g ∧
      ¬ (f = -1#11 ∧ g ≠ 0#52) := by
  simp only [UnpackedFloat.pack]
  split
  · exact ⟨-1#11, 0#52, rfl, by simp⟩
  · rename_i small
    split
    · refine ⟨_, _, rfl, fun special => ?_⟩
      have field := congrArg BitVec.toNat special.1
      rw [BitVec.toNat_ofNat, Nat.mod_eq_of_lt (by omega)] at field
      have top : (-1#11).toNat = 2047 := rfl
      omega
    · exact ⟨0#11, _, rfl, by simp⟩

/-- Packing makes no number into what is none, and none into a number. -/
theorem isNaN_unpack_pack (u : UnpackedFloat) :
    (UnpackedFloat.unpack .binary64 (UnpackedFloat.pack .binary64 u)).isNaN = u.isNaN := by
  cases u with
  | notANumber => rfl
  | infinity s => cases s <;> rfl
  | zero s => cases s <;> rfl
  | finite s m e positive =>
    obtain ⟨f, g, packed, number⟩ := pack_finite s m e positive
    rw [packed, isNaN_unpack_bits, decide_eq_false number]
    rfl

theorem isBelow_unpack_pack {u : UnpackedFloat} (above : isBelow u = false) :
    isBelow (UnpackedFloat.unpack .binary64 (UnpackedFloat.pack .binary64 u)) = false := by
  cases u with
  | notANumber => rfl
  | infinity s => cases s <;> [cases above; rfl]
  | zero s => cases s <;> rfl
  | finite s m e positive =>
    obtain ⟨f, g, packed, -⟩ := pack_finite s m e positive
    rw [packed, ← Bool.not_eq_true]
    intro below
    rw [isBelow_unpack_bits below] at above
    cases above

theorem isNaN_roundWithAccuracy (s : Sign) (m : Nat) (e : Int) (a : Accuracy) :
    (roundWithAccuracy .binary64 s m e a).isNaN = false := by
  simp only [roundWithAccuracy]
  split <;> rfl

theorem isNaN_normalize (n e : Int) :
    (UnpackedFloat.normalize .binary64 n e .positive).isNaN = false := by
  unfold UnpackedFloat.normalize
  split
  · exact isNaN_roundWithAccuracy ..
  · rfl
  · exact isNaN_roundWithAccuracy ..

theorem isNaN_sub_unpacked {u : UnpackedFloat} (finite : u.isFinite = true) (v : UnpackedFloat) :
    (UnpackedFloat.sub .binary64 u v).isNaN = v.isNaN := by
  cases u with
  | notANumber => cases finite
  | infinity s => cases finite
  | zero s =>
    cases v with
    | zero t =>
      rw [UnpackedFloat.sub]
      split <;> rfl
    | _ => rfl
  | finite s m e positive =>
    cases v with
    | finite t n f positive' => exact isNaN_normalize ..
    | _ => rfl

/-- What is not below zero; it is no number where `none` says so. -/
structure Above (none : Bool) (u : UnpackedFloat) : Prop where
  isNaN : u.isNaN = none
  isBelow : isBelow u = false

theorem above_roundWithAccuracy (m : Nat) (e : Int) (a : Accuracy) :
    Above false (roundWithAccuracy .binary64 .positive m e a) := by
  simp only [roundWithAccuracy]
  split <;> exact ⟨rfl, rfl⟩

theorem above_square (u : UnpackedFloat) : Above u.isNaN (UnpackedFloat.mul .binary64 u u) := by
  cases u with
  | notANumber => exact ⟨rfl, rfl⟩
  | infinity s => cases s <;> exact ⟨rfl, rfl⟩
  | zero s => cases s <;> exact ⟨rfl, rfl⟩
  | finite s m e positive =>
    have plus : s * s = .positive := by cases s <;> rfl
    rw [UnpackedFloat.mul, plus]
    exact above_roundWithAccuracy ..

theorem above_normalize {n : Int} (positive : 0 < n) (e : Int) :
    Above false (UnpackedFloat.normalize .binary64 n e .positive) := by
  rw [UnpackedFloat.normalize, compare_gt_iff_gt.mpr positive]
  exact above_roundWithAccuracy ..

theorem above_add {u v : UnpackedFloat} {first second : Bool} (left : Above first u)
    (right : Above second v) : Above (first || second) (UnpackedFloat.add .binary64 u v) := by
  obtain ⟨rfl, left⟩ := left
  obtain ⟨rfl, right⟩ := right
  rcases u with ⟨⟨⟩⟩ | _ | ⟨⟨⟩⟩ | ⟨⟨⟩, m, e, positive⟩ <;> cases left <;>
    rcases v with ⟨⟨⟩⟩ | _ | ⟨⟨⟩⟩ | ⟨⟨⟩, n, f, positive'⟩ <;> cases right <;>
    try exact ⟨rfl, rfl⟩
  -- two finite values are left, whose mantissas are added at the lesser exponent
  refine above_normalize ?_ _
  simp only [Sign.apply, Nat.shiftLeft_eq]
  positivity

theorem isNaN_sqrt_unpacked {none : Bool} {u : UnpackedFloat} (above : Above none u) :
    (UnpackedFloat.sqrt .binary64 u).isNaN = none := by
  obtain ⟨rfl, above⟩ := above
  rcases u with ⟨⟨⟩⟩ | _ | _ | ⟨⟨⟩, m, e, _⟩ <;> cases above <;> try rfl
  exact isNaN_roundWithAccuracy ..

def unpacked (x : Float) : UnpackedFloat := UnpackedFloat.unpack .binary64 (bitsOf x)

/-- Packing keeps what is above zero there. -/
theorem Above.packed {none : Bool} {u : UnpackedFloat} (above : Above none u) {x : Float}
    (made : bitsOf x = UnpackedFloat.pack .binary64 u) : Above none (unpacked x) := by
  rw [unpacked, made]
  exact ⟨(isNaN_unpack_pack u).trans above.isNaN, isBelow_unpack_pack above.isBelow⟩

theorem isNaN_of_made {x : Float} {u : UnpackedFloat}
    (made : bitsOf x = UnpackedFloat.pack .binary64 u) : x.isNaN = u.isNaN := by
  rw [← isNaN_unpack_pack, ← made]
  rfl

theorem lt_iff_rank (x y : Float) :
    x < y ↔ x.isNaN = false ∧ y.isNaN = false ∧ rank (unpacked x) < rank (unpacked y) := by
  have decided : x < y ↔ (unpacked x).lt (unpacked y) = true := decide_eq_true_iff
  exact decided.trans (lt_unpacked_iff (unpacked x) (unpacked y))

theorem le_iff_rank (x y : Float) :
    x ≤ y ↔ x.isNaN = false ∧ y.isNaN = false ∧ rank (unpacked x) ≤ rank (unpacked y) := by
  have decided : x ≤ y ↔ (unpacked x).le (unpacked y) = true := decide_eq_true_iff
  exact decided.trans (le_unpacked_iff (unpacked x) (unpacked y))

theorem float_le_of_lt {x y : Float} (less : x < y) : x ≤ y := by
  obtain ⟨number, number', order⟩ := (lt_iff_rank x y).mp less
  exact (le_iff_rank x y).mpr ⟨number, number', order.le⟩

theorem float_le_trans {x y z : Float} (first : x ≤ y) (second : y ≤ z) : x ≤ z := by
  obtain ⟨number, -, order⟩ := (le_iff_rank x y).mp first
  obtain ⟨-, number', order'⟩ := (le_iff_rank y z).mp second
  exact (le_iff_rank x z).mpr ⟨number, number', order.trans order'⟩

theorem beq_iff_rank (x y : Float) :
    (x == y) = true ↔ x.isNaN = false ∧ y.isNaN = false ∧ rank (unpacked x) = rank (unpacked y) :=
  beq_unpacked_iff (unpacked x) (unpacked y)

theorem isNaN_of_isFinite {x : Float} (finite : x.isFinite = true) : x.isNaN = false := by
  have told : (unpacked x).isFinite = true := finite
  have same : x.isNaN = (unpacked x).isNaN := rfl
  rw [same]
  cases shown : unpacked x <;> first | rfl | (rw [shown] at told; cases told)

theorem rank_of_isNaN {x : Float} (none : x.isNaN = true) :
    rank (unpacked x) = rank .notANumber := by
  have told : (unpacked x).isNaN = true := none
  cases shown : unpacked x <;> first | rfl | (rw [shown] at told; cases told)

/-- Of two numbers, or two values that are none, the row tells the lesser. -/
theorem lt_iff_rank_of_alike {x y : Float} (alike : x.isNaN = y.isNaN) :
    x < y ↔ rank (unpacked x) < rank (unpacked y) := by
  rw [lt_iff_rank]
  cases none : y.isNaN with
  | false =>
    rw [alike, none]
    simp only [true_and]
  | true =>
    rw [rank_of_isNaN none, rank_of_isNaN (alike.trans none)]
    simp

theorem float_le_of_not_lt {x y : Float} (number : x.isNaN = false) (number' : y.isNaN = false)
    (least : ¬ x < y) : y ≤ x := by
  rw [lt_iff_rank_of_alike (number.trans number'.symm), not_lt] at least
  exact (le_iff_rank y x).mpr ⟨number', number, least⟩

theorem isNaN_sub {x : Float} (finite : x.isFinite = true) (y : Float) :
    (x - y).isNaN = y.isNaN :=
  (isNaN_of_made rfl).trans (isNaN_sub_unpacked finite (unpacked y))

/-- The root of a sum of squares is a number where both values are. -/
theorem isNaN_hypotenuse (x y : Float) :
    (x * x + y * y).sqrt.isNaN = (x.isNaN || y.isNaN) := by
  have squared (x : Float) : Above x.isNaN (unpacked (x * x)) :=
    (above_square (unpacked x)).packed rfl
  have summed : Above (x.isNaN || y.isNaN) (unpacked (x * x + y * y)) :=
    (above_add (squared x) (squared y)).packed rfl
  exact (isNaN_of_made rfl).trans (isNaN_sqrt_unpacked summed)

end Docket.Double
