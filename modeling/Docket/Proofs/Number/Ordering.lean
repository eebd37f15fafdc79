import Docket.Proofs.Number.Rounding

/-! The total order of doubles against their row. The order goes by the bits: the sign, then the
exponent and the mantissa as one number, which negative doubles count down. Numbers that it puts in
order are not out of order in the row, where only the two zeros share a place. -/
namespace Docket.Double

open Float.Model UnpackedFloat

/-- Exponent and mantissa as one number. -/
def magnitude (e : BitVec 11) (m : BitVec 52) : Nat := e.toNat * 2 ^ 52 + m.toNat

theorem unpack_bits (s : Sign) (e : BitVec 11) (m : BitVec 52) :
    UnpackedFloat.unpack .binary64 (bits s e m) =
      signed s (UnpackedFloat.unpack .binary64 (bits .positive e m)) := by
  have same : Sign.ofBitVec (@unpackSign .binary64 (bits s e m)) = s := sign_bits s e m
  rw [UnpackedFloat.unpack, UnpackedFloat.unpack, same]
  simp only [bits, unpackMantissa_packComponents, unpackExponent_packComponents]
  split
  · split <;> rfl
  · split
    · split <;> rfl
    · rfl

theorem rank_signed (s : Sign) (u : UnpackedFloat) :
    rank (signed s u) = toward s (rank (signed .positive u)) := by
  cases s <;> cases u <;> rfl

theorem rank_bits (s : Sign) (e : BitVec 11) (m : BitVec 52) :
    rank (UnpackedFloat.unpack .binary64 (bits s e m)) =
      toward s (rank (UnpackedFloat.unpack .binary64 (bits .positive e m))) := by
  rw [unpack_bits, rank_signed, signed_unpack]

/-- The place of a number with a clear sign bit. -/
theorem rank_positive {e : BitVec 11} {m : BitVec 52} (number : ¬ (e = -1#11 ∧ m ≠ 0#52)) :
    rank (UnpackedFloat.unpack .binary64 (bits .positive e m)) =
      if e.toNat = 2047 then toLex (2, toLex (0, 0))
      else if e.toNat = 0 then
        if m.toNat = 0 then 0 else toLex (1, toLex (-1074, (m.toNat : ℤ)))
      else toLex (1, toLex ((e.toNat : ℤ) - 1075, (2 ^ 52 + m.toNat : ℤ))) := by
  have same : Sign.ofBitVec (@unpackSign .binary64 (bits .positive e m)) = .positive :=
    sign_bits ..
  have highest : e.toNat = 2047 ↔ e = -1#11 :=
    ⟨fun field => BitVec.eq_of_toNat_eq field, congrArg BitVec.toNat⟩
  have lowest : e.toNat = 0 ↔ e = 0#11 :=
    ⟨fun field => BitVec.eq_of_toNat_eq field, congrArg BitVec.toNat⟩
  have empty : m.toNat = 0 ↔ m = 0#52 :=
    ⟨fun field => BitVec.eq_of_toNat_eq field, congrArg BitVec.toNat⟩
  have whole : (1#1 ++ m).toNat = 2 ^ 52 + m.toNat := append_toNat 1#1 m
  have bias : (Format.binary64.exponentBias : Int) = 1023 := rfl
  rw [UnpackedFloat.unpack, same]
  simp only [bits, unpackMantissa_packComponents, unpackExponent_packComponents, highest, lowest,
    empty]
  split
  · rename_i special
    rw [if_pos (by_contra fun some => number ⟨special, some⟩)]
    rfl
  · split
    · rename_i least
      split
      · rfl
      · simp [rank, bias, least]
    · simp only [rank, whole, bias]
      rfl

theorem rank_positive_mono {e e' : BitVec 11} {m m' : BitVec 52}
    (number : ¬ (e = -1#11 ∧ m ≠ 0#52)) (number' : ¬ (e' = -1#11 ∧ m' ≠ 0#52))
    (le : magnitude e m ≤ magnitude e' m') :
    rank (UnpackedFloat.unpack .binary64 (bits .positive e m)) ≤
      rank (UnpackedFloat.unpack .binary64 (bits .positive e' m')) := by
  have small := m.isLt
  have small' := m'.isLt
  have few := e.isLt
  have few' := e'.isLt
  unfold magnitude at le
  rw [rank_positive number, rank_positive number']
  have zero : (0 : ℤ ×ₗ ℤ ×ₗ ℤ) = toLex (0, toLex (0, 0)) := rfl
  rw [zero]
  split_ifs <;> simp [Prod.Lex.toLex_le_toLex] <;> omega

theorem rank_positive_nonneg {e : BitVec 11} {m : BitVec 52}
    (number : ¬ (e = -1#11 ∧ m ≠ 0#52)) :
    0 ≤ rank (UnpackedFloat.unpack .binary64 (bits .positive e m)) :=
  rank_positive_mono (e := 0#11) (m := 0#52) (by decide) number (Nat.zero_le _)

/-- The place of a sign and a magnitude in the total order. -/
def key : Sign → Nat → ℤ
  | .positive, n => n
  | .negative, n => -1 - n

theorem orderKey_eq (x : Float) :
    Dyadic.orderKey x =
      key (sign (bitsOf x)) (magnitude (exponent (bitsOf x)) (mantissa (bitsOf x))) := by
  have word : x.toBits.toNat = (bitsOf x).toNat := rfl
  have parts := bits_toNat (sign (bitsOf x)) (exponent (bitsOf x)) (mantissa (bitsOf x))
  have power : (twoTo 63 : ℕ) = 2 ^ 63 := by decide
  have small := (mantissa (bitsOf x)).isLt
  have few := (exponent (bitsOf x)).isLt
  rw [bits_parts] at parts
  rw [Dyadic.orderKey, word]
  simp only [power, magnitude]
  cases top : sign (bitsOf x) with
  | positive =>
    have none : Sign.positive.toBitVec.toNat = 0 := rfl
    rw [top, none] at parts
    rw [if_pos (by omega), key]
    omega
  | negative =>
    have one : Sign.negative.toBitVec.toNat = 1 := rfl
    rw [top, one] at parts
    rw [if_neg (by omega), key]
    omega

theorem number_parts {x : Float} (number : x.isNaN = false) :
    ¬ (exponent (bitsOf x) = -1#11 ∧ mantissa (bitsOf x) ≠ 0#52) := by
  have told : x.isNaN =
      (UnpackedFloat.unpack .binary64 (bits (sign (bitsOf x)) (exponent (bitsOf x))
        (mantissa (bitsOf x)))).isNaN := by
    rw [bits_parts]
    rfl
  rw [told, isNaN_unpack_bits] at number
  exact of_decide_eq_false number

/-- Numbers in the total order are in the order of the row. -/
theorem rank_le_of_orderKey_le {x y : Float} (number : x.isNaN = false) (number' : y.isNaN = false)
    (le : Dyadic.orderKey x ≤ Dyadic.orderKey y) : rank (unpacked x) ≤ rank (unpacked y) := by
  have parts := number_parts number
  have parts' := number_parts number'
  have above := rank_positive_nonneg parts
  have above' := rank_positive_nonneg parts'
  rw [orderKey_eq, orderKey_eq] at le
  rw [unpacked, unpacked, ← bits_parts (bitsOf x), ← bits_parts (bitsOf y), rank_bits,
    rank_bits (sign (bitsOf y))]
  generalize sign (bitsOf x) = s at le ⊢
  generalize sign (bitsOf y) = s' at le ⊢
  cases s <;> cases s' <;> simp only [key] at le
  case positive.positive => exact rank_positive_mono parts parts' (by omega)
  case positive.negative => omega
  case negative.positive => exact (neg_nonpos.mpr above).trans above'
  case negative.negative => exact neg_le_neg (rank_positive_mono parts' parts (by omega))

/-- Operations that make no number of operands that are none. -/
def Passes (op : UnpackedFloat → UnpackedFloat → UnpackedFloat) : Prop :=
  ∀ u v, (u.isNaN || v.isNaN) = true → (op u v).isNaN = true

theorem passes_sub : Passes (UnpackedFloat.sub .binary64) := by
  rintro (_ | _ | _ | _) (_ | _ | _ | _) none <;> first | rfl | cases none

theorem passes_add : Passes (UnpackedFloat.add .binary64) := by
  rintro (_ | _ | _ | _) (_ | _ | _ | _) none <;> first | rfl | cases none

theorem Passes.isNaN_of {op : UnpackedFloat → UnpackedFloat → UnpackedFloat} (passes : Passes op)
    {x y z : Float} (made : bitsOf z = UnpackedFloat.pack .binary64 (op (unpacked x) (unpacked y)))
    (number : z.isNaN = false) : x.isNaN = false ∧ y.isNaN = false := by
  rw [isNaN_of_made made] at number
  apply Bool.or_eq_false_iff.mp
  by_contra some
  have none := passes (unpacked x) (unpacked y) (Bool.eq_true_of_not_eq_false some)
  exact Bool.false_ne_true (number.symm.trans none)

/-- Sums and differences that are numbers come of numbers. -/
theorem isNaN_of_sub {x y : Float} (number : (x - y).isNaN = false) :
    x.isNaN = false ∧ y.isNaN = false :=
  passes_sub.isNaN_of rfl number

theorem isNaN_of_add {x y : Float} (number : (x + y).isNaN = false) :
    x.isNaN = false ∧ y.isNaN = false :=
  passes_add.isNaN_of rfl number

end Docket.Double
