import Docket.Proofs.Number.Rounding

/-! Quotients of doubles. A quotient is worked out to more digits than a double holds, with what is
left over, so it is the exact quotient that is rounded. As a finite double stands for the exact value
that its place in the row tells, quotients by one positive double are in the order of what is
divided. -/
namespace Docket.Double

open Float.Model UnpackedFloat

theorem two_mul_div (n : Nat) {d : Nat} (unit : (0 : ℚ) < d) :
    2 * ((n : ℚ) / d) = 2 * (n / d : Nat) + 2 * (n % d : Nat) / d := by
  have parts : (n : ℚ) = d * (n / d : Nat) + (n % d : Nat) := by
    exact_mod_cast (Nat.div_add_mod n d).symm
  rw [parts]
  field_simp

/-- The remainder of a whole division tells where the quotient lies. -/
theorem tells_fraction (n : Nat) {d : Nat} (positive : 0 < d) :
    Tells (.ofMantissaAndAccuracy (n / d) (accuracyOfFraction (n % d) d)) (n / d) := by
  have unit : (0 : ℚ) < d := by exact_mod_cast positive
  have less : ((n % d : Nat) : ℚ) < d := by exact_mod_cast Nat.mod_lt n positive
  rw [Tells, two_mul_div n unit]
  unfold accuracyOfFraction
  generalize n / d = q
  generalize n % d = r at less
  split
  · rename_i none
    simp [ExtendedMantissa.ofMantissaAndAccuracy, halves, none]
  · rename_i some
    have rest : (0 : ℚ) < 2 * r / d := by
      have nonzero : (0 : ℚ) < r := by exact_mod_cast Nat.pos_of_ne_zero some
      positivity
    have most : 2 * (r : ℚ) / d < 2 := by
      rw [div_lt_iff₀ unit]
      linarith
    cases side : Ord.compare (2 * r) d with
    | lt =>
      have below : 2 * (r : ℚ) / d < 1 := by
        rw [div_lt_one unit]
        exact_mod_cast compare_lt_iff_lt.mp side
      simp [ExtendedMantissa.ofMantissaAndAccuracy, halves, rest, below]
    | eq =>
      have middle : 2 * (r : ℚ) / d = 1 := by
        rw [div_eq_one_iff_eq unit.ne']
        exact_mod_cast compare_eq_iff_eq.mp side
      simp [ExtendedMantissa.ofMantissaAndAccuracy, halves, middle]
    | gt =>
      have above : 1 < 2 * (r : ℚ) / d := by
        rw [one_lt_div unit]
        exact_mod_cast compare_gt_iff_gt.mp side
      simp [ExtendedMantissa.ofMantissaAndAccuracy, halves]
      constructor <;> linarith

/-- A dividend that is moved up far enough gives a quotient of 53 bits. -/
theorem le_div_of_log2 {m₁ m₂ j : Nat} (positive₁ : 0 < m₁) (positive₂ : 0 < m₂)
    (long : m₂.log2 + 53 ≤ m₁.log2 + j) : 2 ^ 52 ≤ m₁ * 2 ^ j / m₂ := by
  have least := Nat.log2_self_le positive₁.ne'
  have most := Nat.lt_log2_self (n := m₂)
  rw [Nat.le_div_iff_mul_le positive₂]
  calc 2 ^ 52 * m₂ ≤ 2 ^ 52 * 2 ^ (m₂.log2 + 1) := Nat.mul_le_mul_left _ most.le
    _ = 2 ^ (m₂.log2 + 53) := by rw [← Nat.pow_add]; congr 1; omega
    _ ≤ 2 ^ (m₁.log2 + j) := Nat.pow_le_pow_right (by decide) long
    _ = 2 ^ m₁.log2 * 2 ^ j := Nat.pow_add ..
    _ ≤ m₁ * 2 ^ j := Nat.mul_le_mul_right _ least

/-- A quotient is worked out to enough digits, unless it lies among the least numbers. -/
theorem divCore_digits {m₁ m₂ : Nat} (e₁ e₂ : Int) (positive₁ : 0 < m₁) (positive₂ : 0 < m₂) :
    let core := divCore .binary64 m₁ e₁ m₂ e₂
    Tells (.ofMantissaAndAccuracy core.1 core.2.2) ((m₁ * 2 ^ e₁) / (m₂ * 2 ^ e₂) / 2 ^ core.2.1) ∧
      (core.2.1 ≤ -1074 ∨ 2 ^ 52 ≤ core.1) := by
  have bits : Format.binary64.mantissaBits = 53 := rfl
  simp only [divCore, Format.targetExponent, totalExponent, bits, minExponent_eq, Nat.shiftLeft_eq,
    Nat.cast_ofNat]
  generalize target : min (e₁ - e₂) (max (m₁.log2 + 1 + e₁ - (m₂.log2 + 1 + e₂) - 53) (-1074)) = e
  have sum : ((e₁ - e₂ - e).toNat : Int) = e₁ - e₂ - e := by omega
  generalize (e₁ - e₂ - e).toNat = j at sum
  have unit : (0 : ℚ) < m₂ := by exact_mod_cast positive₂
  have quotient : ((m₁ * 2 ^ e₁ : ℚ) / (m₂ * 2 ^ e₂)) / 2 ^ e = (m₁ * 2 ^ j : Nat) / m₂ := by
    have power : (2 : ℚ) ^ e₁ = 2 ^ j * 2 ^ e₂ * 2 ^ e := by
      rw [← zpow_natCast, ← zpow_add₀ two_ne_zero, ← zpow_add₀ two_ne_zero]
      congr 1
      omega
    rw [power]
    push_cast
    field_simp
  rw [quotient]
  refine ⟨tells_fraction _ positive₂, ?_⟩
  rw [or_iff_not_imp_left, not_le]
  intro great
  exact le_div_of_log2 positive₁ positive₂ (by omega)

theorem div_rounds (s : Sign) {m₁ m₂ : Nat} (e₁ e₂ : Int) (positive₁ : 0 < m₁)
    (positive₂ : 0 < m₂) :
    ∃ p t, Rounds ((m₁ * 2 ^ e₁) / (m₂ * 2 ^ e₂)) p t ∧
      UnpackedFloat.div .binary64 (.finite s m₁ e₁ positive₁) (.finite .positive m₂ e₂ positive₂) =
        carried s p t := by
  obtain ⟨tells, digits⟩ := divCore_digits e₁ e₂ positive₁ positive₂
  have sign : s / Sign.positive = s := by cases s <;> rfl
  rw [UnpackedFloat.div, sign]
  exact roundWithAccuracy_eq s tells digits

/-- What a double stands for, other than an infinity or no number, is canonical. -/
theorem canonical_unpacked {x : Float} {s : Sign} {m : Nat} {e : Int} {positive : 0 < m}
    (told : unpacked x = .finite s m e positive) : Canonical m e := by
  have parts := bits_parts (bitsOf x)
  rw [unpacked, ← parts, UnpackedFloat.unpack] at told
  simp only [bits, unpackMantissa_packComponents, unpackExponent_packComponents] at told
  have value : (Format.binary64.exponentBias : Int) = 1023 := rfl
  split at told
  · split at told <;> cases told
  · rename_i finite
    split at told
    · rename_i least
      split at told
      · cases told
      · cases told
        have small := (mantissa (bitsOf x)).isLt
        have zero : (exponent (bitsOf x)).toNat = 0 := congrArg BitVec.toNat least
        exact ⟨by omega, by omega, .inl (by omega)⟩
    · rename_i low
      cases told
      have small := (mantissa (bitsOf x)).isLt
      have field : (exponent (bitsOf x)).toNat ≠ 0 := fun zero => low (BitVec.eq_of_toNat_eq zero)
      have whole : (1#1 ++ mantissa (bitsOf x)).toNat = 2 ^ 52 + (mantissa (bitsOf x)).toNat :=
        append_toNat 1#1 _
      rw [whole]
      exact ⟨by omega, by omega, .inr (by omega)⟩

theorem Canonical.spaced {m : Nat} {e : Int} (canonical : Canonical m e) :
    Spaced (m * 2 ^ e) e := by
  refine ⟨canonical.least, ?_, canonical.normal.imp_right fun low => ?_⟩
  · have short : (m : ℚ) < 2 ^ (53 : Int) := by exact_mod_cast canonical.short
    rw [add_comm, zpow_add₀ two_ne_zero]
    gcongr
  · have long : (2 : ℚ) ^ (52 : Int) ≤ m := by exact_mod_cast low
    rw [add_comm, zpow_add₀ two_ne_zero]
    gcongr

/-- Of canonical values the one that comes later in the row is not less. -/
theorem Canonical.le {m m' : Nat} {e e' : Int} (canonical : Canonical m e)
    (canonical' : Canonical m' e') (le : e < e' ∨ e = e' ∧ m ≤ m') :
    (m * 2 ^ e : ℚ) ≤ m' * 2 ^ e' := by
  by_contra less
  have spacing := canonical'.spaced.mono canonical.spaced (not_le.mp less).le
  obtain ⟨rfl, most⟩ : e = e' ∧ m ≤ m' := by omega
  refine less ?_
  gcongr

/-- The exact value of a double; where it has none, zero. -/
def value : UnpackedFloat → ℚ
  | .finite .negative m e _ => -(m * 2 ^ e)
  | .finite .positive m e _ => m * 2 ^ e
  | _ => 0

/-- Finite values as they come of doubles. -/
structure Held (u : UnpackedFloat) : Prop where
  finite : u.isFinite = true
  canonical : ∀ {s m e positive}, u = .finite s m e positive → Canonical m e

theorem held_unpacked {x : Float} (finite : x.isFinite = true) : Held (unpacked x) :=
  ⟨finite, canonical_unpacked⟩

theorem value_le {u v : UnpackedFloat} (held : Held u) (held' : Held v) (le : rank u ≤ rank v) :
    value u ≤ value v := by
  obtain ⟨finite, canonical⟩ := held
  obtain ⟨finite', canonical'⟩ := held'
  have above (m : Nat) (e : Int) : (0 : ℚ) ≤ m * 2 ^ e := by positivity
  have below (m : Nat) (e : Int) : -(m * 2 ^ e : ℚ) ≤ 0 := neg_nonpos.mpr (above m e)
  cases u with
  | notANumber => cases finite
  | infinity s => cases finite
  | zero s =>
    cases v with
    | notANumber => cases finite'
    | infinity t => cases finite'
    | zero t => exact le_refl 0
    | finite t n f positive =>
      cases t with
      | negative => simp [rank, Prod.Lex.toLex_le_toLex] at le
      | positive => exact above n f
  | finite s m e positive =>
    cases v with
    | notANumber => cases finite'
    | infinity t => cases finite'
    | zero t =>
      cases s with
      | negative => exact below m e
      | positive => simp [rank, Prod.Lex.toLex_le_toLex] at le
    | finite t n f positive =>
      cases s <;> cases t <;> simp [rank, Prod.Lex.toLex_le_toLex] at le
      · exact neg_le_neg ((canonical' rfl).le (canonical rfl) (by omega))
      · exact (below m e).trans (above n f)
      · exact (canonical rfl).le (canonical' rfl) le

/-- The place in the row that an exact value is rounded to. -/
inductive Lands : ℚ → ℤ ×ₗ ℤ ×ₗ ℤ → Prop
  | zero : Lands 0 0
  | above {x : ℚ} {p : Nat} {t : Int} (positive : 0 < x) (rounds : Rounds x p t) :
      Lands x (upper p t)
  | below {x : ℚ} {p : Nat} {t : Int} (positive : 0 < x) (rounds : Rounds x p t) :
      Lands (-x) (-upper p t)

/-- A greater value is not rounded to a lesser place. -/
theorem Lands.mono {x x' : ℚ} {r r' : ℤ ×ₗ ℤ ×ₗ ℤ} (lands : Lands x r) (lands' : Lands x' r')
    (le : x ≤ x') : r ≤ r' := by
  cases lands with
  | zero =>
    cases lands' with
    | zero => exact le_refl 0
    | above positive rounds => exact upper_nonneg _ _
    | below positive rounds => linarith
  | above positive rounds =>
    cases lands' with
    | zero => linarith
    | above positive' rounds' => exact upper_mono rounds rounds' le
    | below positive' rounds' => linarith
  | below positive rounds =>
    cases lands' with
    | zero => exact neg_nonpos.mpr (upper_nonneg _ _)
    | above positive' rounds' =>
      exact (neg_nonpos.mpr (upper_nonneg _ _)).trans (upper_nonneg _ _)
    | below positive' rounds' =>
      exact neg_le_neg (upper_mono rounds' rounds (neg_le_neg_iff.mp le))

theorem lands_div {u : UnpackedFloat} (finite : u.isFinite = true) {m : Nat} (e : Int)
    (positive : 0 < m) :
    Lands (value u / (m * 2 ^ e))
      (rank (kept (UnpackedFloat.div .binary64 u (.finite .positive m e positive)))) := by
  cases u with
  | notANumber => cases finite
  | infinity s => cases finite
  | zero s =>
    have none : UnpackedFloat.div .binary64 (.zero s) (.finite .positive m e positive) =
        .zero (s / .positive) := rfl
    have nothing : value (.zero s) = 0 := rfl
    rw [none, kept_zero, nothing, zero_div]
    exact .zero
  | finite s n f positive' =>
    obtain ⟨p, t, rounds, quotient⟩ := div_rounds s f e positive' positive
    have size : (0 : ℚ) < (n * 2 ^ f) / (m * 2 ^ e) := by
      have first : (0 : ℚ) < n := by exact_mod_cast positive'
      have second : (0 : ℚ) < m := by exact_mod_cast positive
      positivity
    rw [quotient, rank_kept_carried s rounds]
    cases s with
    | positive => exact .above size rounds
    | negative =>
      rw [value, neg_div]
      exact .below size rounds

theorem div_infinity {u : UnpackedFloat} (finite : u.isFinite = true) (s : Sign) :
    ∃ t, UnpackedFloat.div .binary64 u (.infinity s) = .zero t := by
  cases u with
  | notANumber => cases finite
  | infinity t => cases finite
  | zero t => exact ⟨_, rfl⟩
  | finite t n f positive => exact ⟨_, rfl⟩

theorem cases_of_above {v : UnpackedFloat} (above : rank (.zero .positive) < rank v) :
    v = .infinity .positive ∨ ∃ m e positive, v = .finite .positive m e positive := by
  rcases v with ⟨⟨⟩⟩ | _ | _ | ⟨⟨⟩, m, e, positive⟩ <;>
    simp [rank, Prod.Lex.toLex_lt_toLex] at above ⊢
  exact positive

theorem isNaN_div {u : UnpackedFloat} (finite : u.isFinite = true) {v : UnpackedFloat}
    (above : rank (.zero .positive) < rank v) :
    (UnpackedFloat.div .binary64 u v).isNaN = false := by
  rcases cases_of_above above with rfl | ⟨m, e, positive, rfl⟩
  · obtain ⟨t, none⟩ := div_infinity finite .positive
    rw [none]
    rfl
  · cases u with
    | notANumber => cases finite
    | infinity s => cases finite
    | zero t => rfl
    | finite t n f positive' => exact isNaN_roundWithAccuracy ..

/-- Quotients by one positive double are in the order of what is divided. -/
theorem div_le_div {x y b : Float} (finite : x.isFinite = true) (finite' : y.isFinite = true)
    (positive : 0 < b) (le : x ≤ y) : x / b ≤ y / b := by
  obtain ⟨-, -, order⟩ := (le_iff_rank x y).mp le
  obtain ⟨-, -, above⟩ := (lt_iff_rank 0 b).mp positive
  have number {z : Float} (finite : z.isFinite = true) : (z / b).isNaN = false :=
    (isNaN_of_made rfl).trans (isNaN_div finite above)
  have made (z : Float) :
      unpacked (z / b) = kept (UnpackedFloat.div .binary64 (unpacked z) (unpacked b)) := rfl
  refine (le_iff_rank _ _).mpr ⟨number finite, number finite', ?_⟩
  rw [made, made]
  rcases cases_of_above above with told | ⟨m, e, some, told⟩
  · obtain ⟨s, none⟩ := div_infinity (u := unpacked x) finite .positive
    obtain ⟨t, none'⟩ := div_infinity (u := unpacked y) finite' .positive
    rw [told, none, none', kept_zero, kept_zero]
    exact le_refl _
  · rw [told]
    refine (lands_div finite e some).mono (lands_div finite' e some) ?_
    have values := value_le (held_unpacked finite) (held_unpacked finite') order
    exact div_le_div_of_nonneg_right values (by positivity)

end Docket.Double
