import Mathlib
import Docket.Text.Class
import Docket.Proofs.Number.Places

/-! Decimal digits of all scripts. They stand in rows from zero to nine, and patterns count every one
of them as a part of a word. -/
namespace Docket.Text
open Reading (Digits natural)

/-- The stretches of points inside a class, each by its first point and its length. -/
def stretches (start : Nat) : List Nat → List (Nat × Nat)
  | gap :: run :: gaps => (start + gap, run) :: stretches (start + gap + run) gaps
  | _ => []

/-- Whether no boundary parts the points of a stretch, and they are inside. -/
def covers : List Nat → Bool → Nat → Nat → Bool
  | [], inside, _, _ => inside
  | g :: gs, inside, n, length =>
    if n < g then inside && n + length ≤ g else covers gs (!inside) (n - g) length

theorem inGaps_of_covers {gaps : List Nat} {inside : Bool} {n length : Nat}
    (covered : covers gaps inside n length = true) {k : Nat} (less : k < length) :
    inGaps gaps inside (n + k) = true := by
  induction gaps generalizing inside n with
  | nil => exact covered
  | cons g gs ih =>
    rw [covers] at covered
    rw [inGaps]
    split at covered
    · rw [Bool.and_eq_true, decide_eq_true_eq] at covered
      rw [if_pos (by omega)]
      exact covered.1
    · rename_i behind
      have rest : n + k - g = n - g + k := by omega
      rw [if_neg (by omega), rest]
      exact ih covered

/-- A class that ends within the points there are is made up of its stretches. -/
theorem mem_stretches (start : Nat) {gaps : List Nat} (even : gaps.length % 2 = 0) {n : Nat}
    (known : inGaps gaps false n = true) :
    ∃ s ∈ stretches start gaps, s.1 ≤ start + n ∧ start + n < s.1 + s.2 := by
  match gaps with
  | [] => cases known
  | [_] => cases even
  | gap :: run :: gaps =>
    rw [inGaps] at known
    split at known
    · cases known
    · rw [inGaps] at known
      split at known
      · exact ⟨(start + gap, run), List.mem_cons_self, by simp only; omega⟩
      · have fewer : gaps.length % 2 = 0 := by
          simp only [List.length_cons] at even
          omega
        obtain ⟨s, among, low, high⟩ := mem_stretches (start + gap + run) fewer known
        exact ⟨s, List.mem_cons_of_mem _ among, by omega, by omega⟩

theorem digits_covered : ∀ s ∈ stretches 0 digitGaps, covers wordGaps false s.1 s.2 = true := by
  decide +kernel

theorem isWordChar_of_isDecimalDigit {c : Char} (digit : isDecimalDigit c = true) :
    isWordChar c = true := by
  rw [isDecimalDigit] at digit
  rw [isWordChar]
  split at digit
  · rename_i ascii
    rw [if_pos ascii, Char.isAlphanum, digit, Bool.or_true, Bool.true_or]
  · rename_i foreign
    obtain ⟨s, among, low, high⟩ := mem_stretches 0 (by decide +kernel) digit
    rw [Nat.zero_add] at low high
    have inside := inGaps_of_covers (digits_covered s among) (k := c.toNat - s.1) (by omega)
    rw [Nat.add_sub_cancel' low] at inside
    rw [if_neg foreign, inside, Bool.or_true]

theorem isDecimalDigit_of_isDigit {c : Char} (digit : Docket.Reading.isDigit c = true) :
    isDecimalDigit c = true := by
  have range := (Reading.isDigit_iff c).mp digit
  have small : c.toNat < 128 := by omega
  rw [isDecimalDigit, if_pos small]
  exact digit

/-- What two texts have in common up to the end of their first digits. -/
theorem digits_unique {ds es front back : List Char} (first : ∀ c ∈ ds, isDecimalDigit c = true)
    (second : ∀ c ∈ es, isDecimalDigit c = true) (ends : front.takeWhile isDecimalDigit = [])
    (stops : back.takeWhile isDecimalDigit = []) (same : ds ++ front = es ++ back) :
    ds = es ∧ front = back := by
  have left := Reading.takeWhile_stretch first ends
  have right := Reading.takeWhile_stretch second stops
  rw [same] at left
  exact ⟨left.1.symm.trans right.1, left.2.symm.trans right.2⟩

/-- How far a point lies behind the last boundary. -/
def sinceBoundary : List Nat → Nat → Nat
  | [], n => n
  | g :: gs, n => if n < g then n else sinceBoundary gs (n - g)

/-- The value of a digit of any script. -/
def digitValue (c : Char) : Nat := sinceBoundary digitGaps c.toNat % 10

/-- The number that digits of any script write. -/
def decimal (ds : List Char) : Nat := ds.foldl (fun n c => 10 * n + digitValue c) 0

theorem digitValue_of_isDigit {c : Char} (digit : Docket.Reading.isDigit c = true) :
    digitValue c = c.toNat - 48 := by
  obtain ⟨low, high⟩ := (Reading.isDigit_iff c).mp digit
  have row : sinceBoundary digitGaps c.toNat = c.toNat - 48 := by
    rw [digitGaps, sinceBoundary, if_neg (by omega), sinceBoundary, if_pos (by omega)]
  rw [digitValue, row]
  omega

theorem decimal_of_digits {ds : List Char} (digits : Digits ds) : decimal ds = natural ds := by
  refine List.foldl_ext _ _ 0 fun n c among => ?_
  rw [digitValue_of_isDigit (digits c among)]
  rfl

example : decimal "٢٠٢٤".toList = 2024 := by decide

end Docket.Text
