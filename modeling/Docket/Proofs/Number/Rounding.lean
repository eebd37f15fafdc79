import Docket.Proofs.Number.Comparing
import Docket.Proofs.Number.Whole

/-! Rounding to doubles keeps the order of what is rounded. An operation hands over a mantissa, the bit
behind it and whether anything is left; these tell where the exact magnitude lies between halves, and
rounding takes the nearest mantissa, an even one at a half. Greater magnitudes have no lesser mantissa
at the same exponent and no lesser exponent, so they come no earlier in the row of all doubles. -/
namespace Docket.Double

open Float.Model UnpackedFloat

/-- A mantissa in halves, the first of its two bits being the half. -/
def halves (em : ExtendedMantissa) : Nat := 2 * em.mantissa + em.roundBit.toNat

/-- A mantissa and its two bits tell a magnitude: its whole halves, and whether anything is left. -/
def Tells (em : ExtendedMantissa) (r : ℚ) : Prop :=
  if em.stickyBit then halves em < 2 * r ∧ 2 * r < halves em + 1 else 2 * r = halves em

theorem tells_whole (m : Nat) : Tells ⟨m, false, false⟩ m := by
  simp [Tells, halves]

theorem Tells.bounds {em : ExtendedMantissa} {r : ℚ} (tells : Tells em r) :
    halves em ≤ 2 * r ∧ 2 * r < halves em + 1 := by
  unfold Tells at tells
  split at tells
  · exact ⟨tells.1.le, tells.2⟩
  · rw [tells]
    exact ⟨le_refl _, lt_add_one _⟩

theorem Tells.half {em : ExtendedMantissa} {r : ℚ} (tells : Tells em r) :
    Tells em.shiftRightOne (r / 2) := by
  rcases em with ⟨m, round, sticky⟩
  have whole : halves (ExtendedMantissa.shiftRightOne ⟨m, round, sticky⟩) = m := by
    simp only [halves, ExtendedMantissa.shiftRightOne]
    rcases Nat.mod_two_eq_zero_or_one m with even | odd
    · simp [even]
      omega
    · simp [odd]
      omega
  rw [Tells, whole]
  simp only [Tells, halves, ExtendedMantissa.shiftRightOne] at tells ⊢
  cases round <;> cases sticky <;> simp at tells ⊢ <;> grind

theorem Tells.shift {em : ExtendedMantissa} {r : ℚ} (tells : Tells em r) (j : Nat) :
    Tells (em >>> j) (r / 2 ^ j) := by
  induction j with
  | zero =>
    rw [pow_zero, div_one]
    exact tells
  | succ j ih =>
    have step : em >>> (j + 1) = (em >>> j).shiftRightOne := rfl
    rw [step, pow_succ, ← div_div]
    exact ih.half

/-- A greater magnitude is not rounded to less. -/
theorem Tells.rounded_le {em em' : ExtendedMantissa} {r r' : ℚ} (tells : Tells em r)
    (tells' : Tells em' r') (le : r ≤ r') : em.roundedMantissa ≤ em'.roundedMantissa := by
  have below : halves em ≤ halves em' := by
    have less : (halves em : ℚ) < halves em' + 1 := by
      linarith [tells.bounds.1, tells'.bounds.2]
    exact Nat.lt_succ_iff.mp (by exact_mod_cast less)
  have left : halves em = halves em' → em.stickyBit = true → em'.stickyBit = true := by
    intro same more
    by_contra none
    rw [Tells, if_pos more, same] at tells
    rw [Tells, if_neg none] at tells'
    linarith [tells.1]
  rcases em with ⟨m, round, sticky⟩
  rcases em' with ⟨m', round', sticky'⟩
  simp only [halves] at below left
  cases round <;> cases sticky <;> cases round' <;> cases sticky' <;>
    simp [ExtendedMantissa.roundedMantissa, ExtendedMantissa.accuracy,
      Accuracy.roundToNearestEven] at below left ⊢ <;> omega

/-- How far apart the doubles around a magnitude lie, as a power of two. -/
structure Spaced (x : ℚ) (t : Int) : Prop where
  least : -1074 ≤ t
  above : x < 2 ^ (t + 53)
  below : t = -1074 ∨ 2 ^ (t + 52) ≤ x

theorem Spaced.mono {x x' : ℚ} {t t' : Int} (spaced : Spaced x t) (spaced' : Spaced x' t')
    (le : x ≤ x') : t ≤ t' := by
  by_contra wider
  rcases spaced.below with least | below
  · exact wider (least ▸ spaced'.least)
  · have power : (2 : ℚ) ^ (t' + 53) ≤ 2 ^ (t + 52) :=
      zpow_le_zpow_right₀ one_le_two (by omega)
    linarith [spaced'.above]

/-- A magnitude in units of the spacing around it is rounded to a whole number. -/
structure Rounds (x : ℚ) (p : Nat) (t : Int) : Prop where
  spaced : Spaced x t
  told : ∃ em, Tells em (x / 2 ^ t) ∧ em.roundedMantissa = p

theorem Rounds.le_of_le {x x' : ℚ} {p p' : Nat} {t : Int} (rounds : Rounds x p t)
    (rounds' : Rounds x' p' t) (le : x ≤ x') : p ≤ p' := by
  obtain ⟨em, tells, rfl⟩ := rounds.told
  obtain ⟨em', tells', rfl⟩ := rounds'.told
  exact tells.rounded_le tells' (by gcongr)

theorem Rounds.le_carry {x : ℚ} {p : Nat} {t : Int} (rounds : Rounds x p t) : p ≤ 2 ^ 53 := by
  obtain ⟨em, tells, rfl⟩ := rounds.told
  refine tells.rounded_le (tells_whole (2 ^ 53)) ?_
  have above := rounds.spaced.above
  rw [zpow_add₀ two_ne_zero, mul_comm] at above
  rw [div_le_iff₀ (by positivity)]
  push_cast
  exact above.le

theorem Rounds.normal {x : ℚ} {p : Nat} {t : Int} (rounds : Rounds x p t) :
    t = -1074 ∨ 2 ^ 52 ≤ p := by
  refine rounds.spaced.below.imp_right fun below => ?_
  obtain ⟨em, tells, rfl⟩ := rounds.told
  refine (tells_whole (2 ^ 52)).rounded_le tells ?_
  rw [zpow_add₀ two_ne_zero, mul_comm] at below
  rw [le_div_iff₀ (by positivity)]
  push_cast
  exact below

/-- The value with a rounded mantissa; one of 54 bits is carried to the next exponent. -/
def carried (s : Sign) (p : Nat) (t : Int) : UnpackedFloat :=
  if positive : 0 < p then
    if p < 2 ^ 53 then .finite s p t positive else .finite s (2 ^ 52) (t + 1) (by decide)
  else .zero s

theorem shift_short {p : Nat} {t : Int} (short : p < 2 ^ 53) (least : -1074 ≤ t) :
    shiftToTargetExponent .binary64 p t .exact = (⟨p, false, false⟩, t) := by
  have log : p.log2 ≤ 52 := by
    by_cases zero : p = 0
    · simp [zero]
    · exact Nat.lt_succ_iff.mp ((Nat.log2_lt zero).mpr short)
  have target : Format.binary64.targetExponent (totalExponent p t) ≤ t := by
    have bits : Format.binary64.mantissaBits = 53 := rfl
    rw [Format.targetExponent, totalExponent, bits, minExponent_eq]
    omega
  have amount : (Format.binary64.targetExponent (totalExponent p t) - t).toNat = 0 := by omega
  rw [shiftToTargetExponent, shiftToExponent]
  simp only [amount, Nat.cast_zero, add_zero]
  rfl

theorem shift_carry {t : Int} (least : -1074 ≤ t) :
    shiftToTargetExponent .binary64 (2 ^ 53) t .exact = (⟨2 ^ 52, false, false⟩, t + 1) := by
  have normal : Normal (2 ^ 52) := ⟨by decide, by decide⟩
  have shifted := shift_exact normal 1 (e := t + 1) (by omega)
  have back : t + 1 - ((1 : Nat) : Int) = t := by omega
  rw [back] at shifted
  exact shifted

theorem Tells.floor {em : ExtendedMantissa} {r : ℚ} (tells : Tells em r) :
    em.mantissa ≤ r ∧ r < em.mantissa + 1 := by
  have low : (2 * em.mantissa : ℚ) ≤ halves em := by
    exact_mod_cast Nat.le_add_right _ _
  have high : (halves em : ℚ) ≤ 2 * em.mantissa + 1 := by
    exact_mod_cast Nat.add_le_add_left (Bool.toNat_le _) _
  constructor <;> linarith [tells.bounds.1, tells.bounds.2]

/-- The exponent that a value is shifted to is the spacing around it, if it has enough digits. -/
theorem spaced_target {q : Nat} {e : Int} {x : ℚ} (floor : q ≤ x / 2 ^ e ∧ x / 2 ^ e < q + 1)
    (digits : e ≤ -1074 ∨ 2 ^ 52 ≤ q) :
    let t := Format.binary64.targetExponent (totalExponent q e)
    e ≤ t ∧ Spaced x t := by
  intro t
  have target : t = max (q.log2 + 1 + e - 53) (-1074) := by
    have bits : Format.binary64.mantissaBits = 53 := rfl
    simp only [t, Format.targetExponent, totalExponent, bits, minExponent_eq, Nat.cast_ofNat]
  have unit : (0 : ℚ) < 2 ^ e := by positivity
  rw [le_div_iff₀ unit, div_lt_iff₀ unit] at floor
  have long : 2 ^ 52 ≤ q → 52 ≤ q.log2 := fun low =>
    (Nat.le_log2 (by omega)).mpr low
  refine ⟨?_, ?_, ?_, ?_⟩
  · omega
  · omega
  · have most : (q : ℚ) + 1 ≤ 2 ^ (q.log2 + 1) := by
      exact_mod_cast Nat.lt_log2_self (n := q)
    calc x < (q + 1) * 2 ^ e := floor.2
      _ ≤ 2 ^ (q.log2 + 1) * 2 ^ e := by gcongr
      _ = 2 ^ (q.log2 + 1 + e) := by rw [← zpow_natCast, ← zpow_add₀ two_ne_zero]; push_cast; rfl
      _ ≤ 2 ^ (t + 53) := zpow_le_zpow_right₀ one_le_two (by omega)
  · by_cases least : t = -1074
    · exact .inl least
    · have nonzero : q ≠ 0 := by
        rintro rfl
        rw [Nat.log2_zero] at target
        omega
      have power : (2 : ℚ) ^ q.log2 ≤ q := by
        exact_mod_cast Nat.log2_self_le nonzero
      refine .inr ?_
      calc (2 : ℚ) ^ (t + 52) = 2 ^ ((q.log2 : Int) + e) := by congr 1; omega
        _ = 2 ^ q.log2 * 2 ^ e := by rw [zpow_add₀ two_ne_zero, zpow_natCast]
        _ ≤ q * 2 ^ e := by gcongr
        _ ≤ x := floor.1

/-- Rounding with what is known of the digits that are left out gives the rounded mantissa, if there
are enough digits to round. -/
theorem roundWithAccuracy_eq {q : Nat} {e : Int} {a : Accuracy} {x : ℚ} (s : Sign)
    (tells : Tells (.ofMantissaAndAccuracy q a) (x / 2 ^ e)) (digits : e ≤ -1074 ∨ 2 ^ 52 ≤ q) :
    ∃ p t, Rounds x p t ∧ roundWithAccuracy .binary64 s q e a = carried s p t := by
  have mantissa : (ExtendedMantissa.ofMantissaAndAccuracy q a).mantissa = q := by
    rcases a with _ | ⟨⟨⟩⟩ <;> rfl
  have floor := tells.floor
  rw [mantissa] at floor
  obtain ⟨wider, spaced⟩ := spaced_target floor digits
  have shifted := tells.shift (Format.binary64.targetExponent (totalExponent q e) - e).toNat
  generalize target : Format.binary64.targetExponent (totalExponent q e) = t at wider spaced shifted
  have sum : ((t - e).toNat : Int) + e = t := by omega
  rw [div_div, ← zpow_natCast, ← zpow_add₀ two_ne_zero, add_comm, sum] at shifted
  have first : shiftToTargetExponent .binary64 q e a =
      (ExtendedMantissa.ofMantissaAndAccuracy q a >>> (t - e).toNat, t) := by
    rw [shiftToTargetExponent, target, shiftToExponent, add_comm, sum]
  have rounds : Rounds x _ t := ⟨spaced, _, shifted, rfl⟩
  refine ⟨_, t, rounds, ?_⟩
  rw [roundWithAccuracy, first, carried]
  dsimp only
  generalize (ExtendedMantissa.ofMantissaAndAccuracy q a >>> (t - e).toNat).roundedMantissa = p
    at rounds
  rcases rounds.le_carry.lt_or_eq with short | rfl
  · rw [shift_short short spaced.least]
    by_cases zero : p = 0
    · subst zero
      rfl
    · rw [dif_neg zero, dif_pos (Nat.pos_of_ne_zero zero), if_pos short]
  · rw [shift_carry spaced.least]
    rfl

/-- A mantissa and an exponent as packing wants them. -/
structure Canonical (m : Nat) (e : Int) : Prop where
  short : m < 2 ^ 53
  least : -1074 ≤ e
  normal : e = -1074 ∨ 2 ^ 52 ≤ m

/-- A value as it is after it has been packed into bits. -/
def kept (u : UnpackedFloat) : UnpackedFloat :=
  UnpackedFloat.unpack .binary64 (UnpackedFloat.pack .binary64 u)

theorem unpack_subnormal (s : Sign) {m : Nat} (positive : 0 < m) (small : m < 2 ^ 52) :
    UnpackedFloat.unpack .binary64 (bits s 0#11 (BitVec.ofNat 52 m)) =
      .finite s m (-1074) positive := by
  have field : (BitVec.ofNat 52 m).toNat = m := by
    rw [BitVec.toNat_ofNat, Nat.mod_eq_of_lt small]
  have nonzero : BitVec.ofNat 52 m ≠ 0#52 := by
    intro zero
    have none : m = 0 := field.symm.trans (congrArg BitVec.toNat zero)
    omega
  have same : Sign.ofBitVec (@unpackSign .binary64 (bits s 0#11 (BitVec.ofNat 52 m))) = s :=
    sign_bits s _ _
  rw [UnpackedFloat.unpack, same]
  simp only [bits, unpackMantissa_packComponents, unpackExponent_packComponents]
  rw [if_neg (by decide), if_pos trivial, dif_neg nonzero]
  simp only [field]
  rfl

/-- Packing keeps a canonical value unless its exponent is too great. -/
theorem kept_finite (s : Sign) {m : Nat} {e : Int} (positive : 0 < m) (canonical : Canonical m e) :
    kept (.finite s m e positive) =
      if e ≤ 971 then .finite s m e positive else .infinity s := by
  obtain ⟨short, least, normal⟩ := canonical
  split
  · rename_i small
    by_cases low : 2 ^ 52 ≤ m
    · have long : Normal m := ⟨low, short⟩
      rw [kept, pack_normal long s least small, unpack_normal long s least small]
    · obtain rfl : e = -1074 := normal.resolve_right low
      have log : m.log2 < 52 := (Nat.log2_lt (by omega)).mpr (by omega)
      have packed : UnpackedFloat.pack .binary64 (.finite s m (-1074) positive) =
          bits s 0#11 (BitVec.ofNat 52 m) := by
        have implicit : Format.binary64.mantissaBits = 53 := rfl
        have bias : (Format.binary64.exponentBias : Int) = 1023 := rfl
        simp only [UnpackedFloat.pack]
        rw [if_neg (by omega), if_neg (by omega)]
        rfl
      rw [kept, packed, unpack_subnormal s positive (by omega)]
  · rename_i great
    have packed : UnpackedFloat.pack .binary64 (.finite s m e positive) =
        packedInfinity .binary64 s := by
      have bias : (Format.binary64.exponentBias : Int) = 1023 := rfl
      simp only [UnpackedFloat.pack]
      rw [if_pos (by omega)]
    rw [kept, packed]
    cases s <;> rfl

theorem kept_zero (s : Sign) : kept (.zero s) = .zero s := by
  cases s <;> rfl

/-- The place in the row of all numbers that a sign gives to a place of the upper half. -/
def toward : Sign → ℤ ×ₗ ℤ ×ₗ ℤ → ℤ ×ₗ ℤ ×ₗ ℤ
  | .negative, r => -r
  | .positive, r => r

/-- The place of a rounded magnitude, which is beyond all numbers if its exponent is too great. -/
def upper (p : Nat) (t : Int) : ℤ ×ₗ ℤ ×ₗ ℤ :=
  if p = 0 then 0
  else if 971 < t ∨ t = 971 ∧ p = 2 ^ 53 then toLex (2, toLex (0, 0))
  else if p = 2 ^ 53 then toLex (1, toLex (t + 1, 2 ^ 52))
  else toLex (1, toLex (t, (p : ℤ)))

theorem rank_finite (s : Sign) (m : Nat) (e : Int) (positive : 0 < m) :
    rank (.finite s m e positive) = toward s (toLex (1, toLex (e, (m : ℤ)))) := by
  cases s <;> rfl

theorem rank_infinity (s : Sign) : rank (.infinity s) = toward s (toLex (2, toLex (0, 0))) := by
  cases s <;> rfl

theorem rank_kept_carried {x : ℚ} {p : Nat} {t : Int} (s : Sign) (rounds : Rounds x p t) :
    rank (kept (carried s p t)) = toward s (upper p t) := by
  have least := rounds.spaced.least
  unfold carried upper
  split
  · rename_i positive
    rw [if_neg positive.ne']
    split
    · rename_i short
      rw [kept_finite s positive ⟨short, least, rounds.normal⟩]
      split
      · rw [rank_finite, if_neg (by omega), if_neg (by omega)]
      · rw [rank_infinity, if_pos (by omega)]
    · have full : p = 2 ^ 53 := by
        have most := rounds.le_carry
        omega
      rw [if_pos full, kept_finite s _ ⟨by decide, by omega, .inr (le_refl _)⟩]
      split
      · rw [rank_finite, if_neg (by omega)]
        rfl
      · rw [rank_infinity, if_pos (by omega)]
  · rw [if_pos (by omega), kept_zero]
    cases s <;> rfl

theorem upper_nonneg (p : Nat) (t : Int) : 0 ≤ upper p t := by
  have above {a : ℤ} (positive : 0 < a) (b : ℤ ×ₗ ℤ) : 0 ≤ (toLex (a, b) : ℤ ×ₗ ℤ ×ₗ ℤ) :=
    Prod.Lex.toLex_le_toLex.mpr (.inl positive)
  unfold upper
  split_ifs
  · exact le_refl _
  all_goals exact above (by decide) _

/-- A greater magnitude is not rounded to a lesser place. -/
theorem upper_mono {x x' : ℚ} {p p' : Nat} {t t' : Int} (rounds : Rounds x p t)
    (rounds' : Rounds x' p' t') (le : x ≤ x') : upper p t ≤ upper p' t' := by
  have spacing := rounds.spaced.mono rounds'.spaced le
  have most := rounds.le_carry
  have most' := rounds'.le_carry
  have normal : t < t' → 2 ^ 52 ≤ p' := fun less =>
    rounds'.normal.resolve_left (by have least := rounds.spaced.least; omega)
  have together : t = t' → p ≤ p' := by
    rintro rfl
    exact rounds.le_of_le rounds' le
  by_cases zero : p = 0
  · rw [upper, if_pos zero]
    exact upper_nonneg p' t'
  · have nonzero : p' ≠ 0 := by
      rcases spacing.lt_or_eq with less | same
      · have low := normal less
        omega
      · have low := together same
        omega
    rw [upper, upper, if_neg zero, if_neg nonzero]
    split_ifs <;> simp [Prod.Lex.toLex_le_toLex] <;> omega

end Docket.Double
