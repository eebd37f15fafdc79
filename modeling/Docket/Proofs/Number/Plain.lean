import Docket.Number.Reading
import Docket.Number.Shortest
import Docket.Proofs.Number.Sign
import Docket.Text.Class

/-! How numbers stand in running text: digits, perhaps with a point among them, and a minus sign in
front if the sign bit is set. -/
namespace Docket

/-- Digits, perhaps with a point and more digits behind them. -/
inductive Decimal : List Char → Prop
  | whole (ds : List Char) (nonempty : ds ≠ []) (digits : ∀ c ∈ ds, Reading.isDigit c = true) :
      Decimal ds
  | pointed (ds fs : List Char) (nonempty : ds ≠ []) (digits : ∀ c ∈ ds, Reading.isDigit c = true)
      (fraction : ∀ c ∈ fs, Reading.isDigit c = true) : Decimal (ds ++ '.' :: fs)

theorem Decimal.starts {text : List Char} (decimal : Decimal text) :
    ∃ c rest, text = c :: rest ∧ Reading.isDigit c = true := by
  cases decimal with
  | whole ds nonempty digits =>
    obtain ⟨c, rest, rfl⟩ := List.exists_cons_of_ne_nil nonempty
    exact ⟨c, rest, rfl, digits c List.mem_cons_self⟩
  | pointed ds fs nonempty digits fraction =>
    obtain ⟨c, rest, rfl⟩ := List.exists_cons_of_ne_nil nonempty
    exact ⟨c, rest ++ '.' :: fs, rfl, digits c List.mem_cons_self⟩

theorem Reading.isBlank_of_isDigit {c : Char} (digit : isDigit c = true) :
    Text.isBlank c = false := by
  simp only [isDigit, Bool.and_eq_true, decide_eq_true_eq, Char.le_def,
    UInt32.le_iff_toNat_le] at digit
  have low : 48 ≤ c.toNat := digit.1
  have high : c.toNat ≤ 57 := digit.2
  simp only [Text.isBlank]
  simp
  omega

namespace FloatFormat

theorem digitsOf_isDigit {n : Nat} {c : Char} (known : c ∈ digitsOf n) :
    Reading.isDigit c = true := by
  have digit := Nat.isDigit_of_mem_toDigits (by decide) (by decide) known
  simpa [Reading.isDigit, Char.isDigit, Char.le_def, UInt32.le_iff_toNat_le] using digit

theorem zeros_isDigit {n : Nat} {c : Char} (known : c ∈ zeros n) : Reading.isDigit c = true := by
  obtain rfl := List.eq_of_mem_replicate known
  rfl

theorem place_decimal (t : DecimalText) : Decimal (place t false) := by
  have some : digitsOf t.digits ≠ [] := Nat.toDigits_ne_nil
  simp only [place, Bool.false_eq_true, if_false, List.append_nil]
  split
  · refine .whole _ (List.append_ne_nil_of_left_ne_nil some _) fun c known => ?_
    rcases List.mem_append.mp known with known | known
    · exact digitsOf_isDigit known
    · exact zeros_isDigit known
  · split
    · refine .pointed _ _ ?_ (fun c known => ?_) fun c known => ?_
      · intro none
        have short := congrArg List.length none
        rw [List.length_take, List.length_nil] at short
        omega
      · exact digitsOf_isDigit (List.mem_of_mem_take known)
      · exact digitsOf_isDigit (List.mem_of_mem_drop known)
    · refine .pointed ['0'] _ (List.cons_ne_nil _ _) (fun c known => ?_) fun c known => ?_
      · obtain rfl := List.mem_singleton.mp known
        rfl
      · rcases List.mem_append.mp known with known | known
        · exact zeros_isDigit known
        · exact digitsOf_isDigit known

/-- The text of a finite double is a decimal behind the sign of its bits. -/
theorem write_plain {x : Float} (finite : x.isFinite = true) :
    ∃ text, Decimal text ∧
      (Double.sign (Double.bitsOf x) = .positive ∧ (plain.write x).toList = text ∨
        Double.sign (Double.bitsOf x) = .negative ∧ (plain.write x).toList = '-' :: text) := by
  obtain ⟨d, dyadic, negative⟩ := Double.ofFloat?_of_isFinite finite
  have decimal (t : DecimalText) : Decimal (plain.magnitude t) := by
    unfold magnitude
    split
    · exact place_decimal _
    · exact place_decimal _
  refine ⟨plain.magnitude (Shortest.ofDyadic plain.tie d), decimal _, ?_⟩
  simp only [write, dyadic, String.toList_ofList]
  cases sign : Double.sign (Double.bitsOf x) with
  | positive =>
    have clear : d.negative = false := by
      cases set : d.negative with
      | false => rfl
      | true => cases sign.symm.trans (negative.mp set)
    rw [clear]
    exact Or.inl ⟨rfl, rfl⟩
  | negative =>
    rw [negative.mpr sign]
    exact Or.inr ⟨rfl, rfl⟩

end FloatFormat
end Docket
