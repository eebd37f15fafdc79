import Mathlib
import Docket.Proofs.Json.Atoms

/-! Numbers read back. Reading a number looks no further than the first character that cannot
belong to it, so what it gives for a number alone it gives for the number in a longer text. -/
namespace Docket.Json

namespace Cursor

theorem digits_append (text : List Char) {rest : List Char} (ends : Ends rest) :
    (text ++ rest).takeWhile Reading.isDigit = text.takeWhile Reading.isDigit ∧
      (text ++ rest).dropWhile Reading.isDigit = text.dropWhile Reading.isDigit ++ rest := by
  induction text with
  | nil => exact ends.digits
  | cons ch text ih =>
    simp only [List.cons_append, List.takeWhile_cons, List.dropWhile_cons]
    split
    · exact ⟨congrArg (ch :: ·) ih.1, ih.2⟩
    · exact ⟨rfl, rfl⟩

/-- What a scan gives is given as well where more text stands behind. -/
def Grows (rest : List Char) (scan scan' : Scan (Number × Cursor)) : Prop :=
  ∀ n d, scan = .ok (n, d) → ∃ d', scan' = .ok (n, d') ∧ d'.rest = d.rest ++ rest

section Longer
variable {rest : List Char} {c c' : Cursor} (ends : Ends rest) (longer : c'.rest = c.rest ++ rest)
include longer

theorem next_longer (some : c.rest ≠ []) : c'.next.rest = c.next.rest ++ rest := by
  obtain ⟨ch, text, stands⟩ := List.exists_cons_of_ne_nil some
  rw [stands, List.cons_append] at longer
  rw [next_rest longer, next_rest stands]

theorem real_grows (negative : Bool) (n : Nat) (e : Int) :
    Grows rest (real negative n e c) (real negative n e c') := by
  intro m d read
  rw [real] at read ⊢
  cases known : Reading.assembled n e with
  | none =>
    rw [known] at read
    cases read
  | some x =>
    rw [known] at read
    cases read
    exact ⟨c', rfl, longer⟩

theorem exponent_grows (ds : List Char) {tail : List Char} (stands : c.rest = ds ++ tail)
    (n : Nat) :
    (∃ m d d', exponent n ds c = .ok (m, d) ∧ exponent n ds c' = .ok (m, d') ∧
      d'.rest = d.rest ++ rest) ∨
    ∃ d d', exponent n ds c = .error d ∧ exponent n ds c' = .error d' := by
  induction ds generalizing c c' n with
  | nil => exact .inl ⟨n, c, c', rfl, rfl, longer⟩
  | cons ch ds ih =>
    have behind := next_longer longer (by rw [stands]; exact List.cons_ne_nil _ _)
    simp only [exponent]
    split
    · exact ih behind (next_rest stands) _
    · exact .inr ⟨c.next, c'.next, rfl, rfl⟩

include ends

theorem head_longer (ch : Char) (other : ch ≠ ',' ∧ ch ≠ '\n') :
    c'.rest.head? = some ch ↔ c.rest.head? = some ch := by
  rw [longer]
  cases c.rest with
  | cons _ _ => exact Iff.rfl
  | nil =>
    cases rest with
    | nil => exact Iff.rfl
    | cons first rest =>
      rcases ends with rfl | rfl
      · simp [other.1.symm]
      · simp [other.2.symm]

theorem digits_longer : c'.digits = c.digits := by
  rw [digits, digits, longer, (digits_append c.rest ends).1]

theorem pastDigits_longer : c'.pastDigits.rest = c.pastDigits.rest ++ rest := by
  rw [pastDigits, pastDigits, pastAll_rest, pastAll_rest, longer, (digits_append c.rest ends).2]

end Longer

/-- The exponent behind its mark and its sign. -/
def exponentDigits (negative below : Bool) (n : Nat) (e : Int) (c : Cursor) :
    Scan (Number × Cursor) :=
  if c.rest.isEmpty then .error (c.fault .endInValue)
  else if c.digits.isEmpty then .error (c.peekFault .invalidNumber)
  else
    match exponent 0 c.digits c with
    | .ok (power, behind) => real negative n (if below then e - power else e + power) behind
    | .error beyond =>
      if n ≠ 0 ∧ !below then .error (beyond.fault .numberOutOfRange)
      else .ok (.real (if negative then -0.0 else 0.0), c.pastDigits)

theorem head_ne {c : Cursor} {ch : Char} (other : ∀ text, c.rest = ch :: text → False) :
    c.rest.head? ≠ some ch := by
  intro head
  obtain ⟨text, starts⟩ := List.head?_eq_some_iff.mp head
  exact other text starts

theorem exponentPart_eq (negative : Bool) (n : Nat) (e : Int) (c : Cursor) :
    exponentPart negative n e c =
      if c.rest.head? = some '+' then exponentDigits negative false n e c.next
      else if c.rest.head? = some '-' then exponentDigits negative true n e c.next
      else exponentDigits negative false n e c := by
  rw [exponentPart]
  split
  rename_i below behind sign
  split at sign
  · rename_i stands
    cases sign
    rw [stands]
    rfl
  · rename_i stands
    cases sign
    rw [stands]
    rfl
  · rename_i plus minus
    cases sign
    rw [if_neg (head_ne plus), if_neg (head_ne minus)]
    rfl

theorem afterDigits_eq (negative : Bool) (n : Nat) (e : Int) (c : Cursor) :
    afterDigits negative n e c =
      if c.rest.head? = some 'e' ∨ c.rest.head? = some 'E' then exponentPart negative n e c.next
      else real negative n e c := by
  rw [afterDigits]
  split
  · rename_i stands
    rw [stands]
    rfl
  · rename_i stands
    rw [stands]
    rfl
  · rename_i small large
    rw [if_neg (not_or.mpr ⟨head_ne small, head_ne large⟩)]

/-- A number behind its whole digits. -/
def numberBehind (negative : Bool) (n left : Nat) (c : Cursor) : Scan (Number × Cursor) :=
  if c.rest.head? = some '.' then fractionPart negative n left c.next
  else if c.rest.head? = some 'e' ∨ c.rest.head? = some 'E' then
    exponentPart negative n left c.next
  else if left ≠ 0 then real negative n left c
  else if !negative then .ok (.whole n, c)
  else if n = 0 ∨ twoTo 63 < n then .ok (.real (-Float.ofNat n), c)
  else .ok (.whole (-(n : Int)), c)

/-- Whole digits as a number has them: at least one, and none behind a zero in front. -/
def Leads (ds : List Char) : Prop := ds ≠ [] ∧ ∀ ch more, ds ≠ '0' :: ch :: more

theorem number_eq {c : Cursor} (leads : Leads c.digits) (negative : Bool) :
    c.number negative =
      numberBehind negative (significand 0 c.digits).1 (significand 0 c.digits).2.2
        c.pastDigits := by
  have some : c.rest ≠ [] := by
    intro empty
    exact leads.1 (by rw [digits, empty]; rfl)
  rw [number]
  split
  · rename_i empty
    exact absurd empty some
  · rename_i none _
    exact absurd none leads.1
  · rename_i zero _
    exact absurd zero (leads.2 _ _)
  · dsimp only
    rw [numberBehind]
    split
    · rename_i stands
      rw [stands]
      rfl
    · rename_i stands
      rw [stands]
      rfl
    · rename_i stands
      rw [stands]
      rfl
    · rename_i point small large
      rw [if_neg (head_ne point), if_neg (not_or.mpr ⟨head_ne small, head_ne large⟩)]

theorem leads_of_number {c d : Cursor} {negative : Bool} {n : Number}
    (read : c.number negative = .ok (n, d)) : Leads c.digits := by
  rw [number] at read
  split at read
  · cases read
  · cases read
  · cases read
  · rename_i some zero
    exact ⟨some, fun ch more => zero ch more⟩

section Longer
variable {rest : List Char} {c c' : Cursor} (ends : Ends rest) (longer : c'.rest = c.rest ++ rest)
include ends longer

theorem exponentDigits_grows (negative below : Bool) (n : Nat) (e : Int) :
    Grows rest (exponentDigits negative below n e c) (exponentDigits negative below n e c') := by
  intro m d read
  rw [exponentDigits] at read ⊢
  split at read
  · cases read
  rename_i some
  split at read
  · cases read
  rename_i digit
  have some' : ¬ c'.rest.isEmpty = true := by
    intro empty
    rw [List.isEmpty_iff, longer, List.append_eq_nil_iff] at empty
    exact some (List.isEmpty_iff.mpr empty.1)
  have stands : c.rest = c.digits ++ c.rest.dropWhile Reading.isDigit :=
    (List.takeWhile_append_dropWhile).symm
  rw [if_neg some', digits_longer ends longer, if_neg digit]
  rcases exponent_grows longer c.digits stands 0 with
    ⟨power, behind, behind', first, second, more⟩ | ⟨beyond, beyond', first, second⟩
  · rw [first] at read
    rw [second]
    exact real_grows more negative n _ m d read
  · rw [first] at read
    rw [second]
    dsimp only at read ⊢
    split at read
    · cases read
    · rename_i small
      cases read
      rw [if_neg small]
      exact ⟨c'.pastDigits, rfl, pastDigits_longer ends longer⟩

theorem exponentPart_grows (negative : Bool) (n : Nat) (e : Int) :
    Grows rest (exponentPart negative n e c) (exponentPart negative n e c') := by
  have some {ch : Char} (head : c.rest.head? = some ch) : c.rest ≠ [] := by
    intro empty
    rw [empty] at head
    cases head
  rw [exponentPart_eq, exponentPart_eq]
  simp only [head_longer ends longer '+' (by decide),
    head_longer ends longer '-' (by decide)]
  split
  · rename_i head
    exact exponentDigits_grows ends (next_longer longer (some head)) negative false n e
  · split
    · rename_i head
      exact exponentDigits_grows ends (next_longer longer (some head)) negative true n e
    · exact exponentDigits_grows ends longer negative false n e

theorem afterDigits_grows (negative : Bool) (n : Nat) (e : Int) :
    Grows rest (afterDigits negative n e c) (afterDigits negative n e c') := by
  rw [afterDigits_eq, afterDigits_eq]
  simp only [head_longer ends longer 'e' (by decide),
    head_longer ends longer 'E' (by decide)]
  split
  · rename_i head
    refine exponentPart_grows ends (next_longer longer fun empty => ?_) negative n e
    simp [empty] at head
  · exact real_grows longer negative n e

theorem fractionPart_grows (negative : Bool) (n : Nat) (e : Int) :
    Grows rest (fractionPart negative n e c) (fractionPart negative n e c') := by
  intro m d read
  rw [fractionPart] at read ⊢
  split at read
  · cases read
  · rename_i digit
    rw [digits_longer ends longer, if_neg digit]
    exact afterDigits_grows ends (pastDigits_longer ends longer) negative _ _ m d read

theorem numberBehind_grows (negative : Bool) (n left : Nat) :
    Grows rest (numberBehind negative n left c) (numberBehind negative n left c') := by
  rw [numberBehind, numberBehind]
  simp only [head_longer ends longer '.' (by decide),
    head_longer ends longer 'e' (by decide),
    head_longer ends longer 'E' (by decide)]
  split
  · rename_i head
    refine fractionPart_grows ends (next_longer longer fun empty => ?_) negative n left
    simp [empty] at head
  split
  · rename_i head
    refine exponentPart_grows ends (next_longer longer fun empty => ?_) negative n left
    simp [empty] at head
  split
  · exact real_grows longer negative n left
  -- what is left are numbers that are known already
  split
  · rintro m d ⟨⟩
    exact ⟨c', rfl, longer⟩
  split
  · rintro m d ⟨⟩
    exact ⟨c', rfl, longer⟩
  · rintro m d ⟨⟩
    exact ⟨c', rfl, longer⟩

theorem number_grows (negative : Bool) : Grows rest (c.number negative) (c'.number negative) := by
  intro n d read
  have leads := leads_of_number read
  have leads' : Leads c'.digits := by rwa [digits_longer ends longer]
  rw [number_eq leads] at read
  rw [number_eq leads', digits_longer ends longer]
  exact numberBehind_grows ends (pastDigits_longer ends longer) negative _ _ n d read

end Longer

theorem kind_negative {c : Cursor} {text : List Char} (stands : c.skip.rest = '-' :: text) :
    c.kind = (c.skip.next.number true).map fun (n, c) => (.atom (.number n), c) := by
  simp only [kind, stands]

theorem kind_digit {c : Cursor} {ch : Char} {text : List Char}
    (stands : c.skip.rest = ch :: text) (digit : Reading.isDigit ch = true) :
    c.kind = (c.skip.number false).map fun (n, c) => (.atom (.number n), c) := by
  simp only [kind]
  split
  · rename_i empty
    rw [stands] at empty
    cases empty
  all_goals
    rename_i starts
    rw [stands] at starts
    try
      cases starts
      cases digit
  cases starts
  rw [if_pos digit]

theorem of_map_number {scan : Scan (Number × Cursor)} {n : Number} {d : Cursor}
    (read : (scan.map fun (n, c) => (Kind.atom (.number n), c)) = .ok (.atom (.number n), d)) :
    scan = .ok (n, d) := by
  cases scan with
  | error stop => cases read
  | ok answer =>
    obtain ⟨m, c⟩ := answer
    cases read
    rfl

/-- Where a kind turns out to be a number, a minus sign or a digit stands in front. -/
theorem number_of_kind {c d : Cursor} {n : Number} (read : c.kind = .ok (.atom (.number n), d)) :
    (∃ text, c.skip.rest = '-' :: text ∧ c.skip.next.number true = .ok (n, d)) ∨
      ∃ ch text, c.skip.rest = ch :: text ∧ Reading.isDigit ch = true ∧
        c.skip.number false = .ok (n, d) := by
  have keyword (scan : Scan Cursor) (a : Atom) (other : ∀ n, a ≠ .number n) :
      (scan.map fun c => (Kind.atom a, c)) ≠ .ok (.atom (.number n), d) := by
    cases scan with
    | error stop => exact fun same => by cases same
    | ok c =>
      intro same
      cases same
      exact other n rfl
  simp only [kind] at read
  split at read
  · cases read
  · exact absurd read (keyword _ _ (by simp))
  · exact absurd read (keyword _ _ (by simp))
  · exact absurd read (keyword _ _ (by simp))
  · cases quoted : c.skip.next.string with
    | error stop =>
      rw [quoted] at read
      cases read
    | ok answer =>
      rw [quoted] at read
      cases read
  · rename_i text stands
    exact .inl ⟨text, stands, of_map_number read⟩
  · cases read
  · cases read
  · rename_i ch text _ _ _ _ _ _ _ stands
    split at read
    · rename_i digit
      exact .inr ⟨ch, text, stands, digit, of_map_number read⟩
    · cases read

end Cursor

/-- A double that is read back from the text it is written as. -/
def Restored (x : Float) : Prop := decodeText Decoder.float (pretty (.real x)) = .ok x

instance : DecidablePred Restored := fun x =>
  inferInstanceAs (Decidable (decodeText Decoder.float (pretty (.real x)) = .ok x))

theorem Restored.kind {x : Float} (restored : Restored x) :
    ∃ n d, n.toFloat = x ∧ (Cursor.ofText (pretty (.real x))).kind = .ok (.atom (.number n), d) ∧
      d.skip.rest = [] := by
  rw [Restored, decodeText, Decoder.float, Decoder.ofKind] at restored
  dsimp only at restored
  cases read : (Cursor.ofText (pretty (.real x))).kind with
  | error stop =>
    rw [read] at restored
    cases restored
  | ok answer =>
    obtain ⟨kind, d⟩ := answer
    rw [read] at restored
    simp only [bind, Except.bind] at restored
    cases kind with
    | atom a =>
      cases a with
      | number n =>
        simp only [pure, Except.pure] at restored
        split at restored
        · rename_i empty
          exact ⟨n, d, Except.ok.inj restored, rfl, List.isEmpty_iff.mp empty⟩
        · cases restored
      | _ => cases restored
    | _ => cases restored

namespace Atom
open Cursor

/-- What reads back alone reads back in front of more text. -/
theorem written_restored {x : Float} (restored : Restored x) :
    ∃ n, n.toFloat = x ∧ Written (pretty (.real x)).toList (.number n) := by
  obtain ⟨n, d, value, read, left⟩ := restored.kind
  -- Alone the number ends with its text, so in a longer text it ends where the rest begins.
  refine ⟨n, value, fun rest c ends before => ?_⟩
  have alone : (ofText (pretty (.real x))).skip.rest =
      (pretty (.real x)).toList.dropWhile isSpace := skip_rest _
  have behind {d' : Cursor} (more : d'.rest = d.rest ++ rest) : d'.Before rest := by
    rw [skip_rest] at left
    rw [Before, skip_rest, more, List.dropWhile_append, left]
    rfl
  have stands {ch : Char} {text : List Char}
      (first : (ofText (pretty (.real x))).skip.rest = ch :: text) :
      c.skip.rest = ch :: (text ++ rest) := by
    rw [before, List.dropWhile_append, ← alone, first]
    rfl
  rcases number_of_kind read with ⟨text, minus, number⟩ | ⟨ch, text, first, digit, number⟩
  · have longer : c.skip.next.rest = (ofText (pretty (.real x))).skip.next.rest ++ rest := by
      rw [next_rest (stands minus), next_rest minus]
    obtain ⟨d', number', more⟩ := number_grows ends longer true n d number
    refine ⟨d', ?_, behind more⟩
    rw [kind_negative (stands minus), number']
    rfl
  · have longer : c.skip.rest = (ofText (pretty (.real x))).skip.rest ++ rest := by
      rw [stands first, first]
      rfl
    obtain ⟨d', number', more⟩ := number_grows ends longer false n d number
    refine ⟨d', ?_, behind more⟩
    rw [kind_digit (stands first) digit, number']
    rfl

theorem isDigit_of_mem_toDigits {n : Nat} {ch : Char} (known : ch ∈ Nat.toDigits 10 n) :
    Reading.isDigit ch = true := FloatFormat.digitsOf_isDigit known

theorem head_toDigits {n : Nat} (positive : 0 < n) : (Nat.toDigits 10 n).head? ≠ some '0' := by
  induction n using Nat.strong_induction_on with
  | _ n ih =>
    by_cases small : n < 10
    · rw [Nat.toDigits_of_lt_base small]
      interval_cases n <;> decide
    · have split := Nat.toDigits_of_base_le (by decide) (not_lt.mp small)
      have above : (Nat.toDigits 10 (n / 10)).head? ≠ some '0' := ih (n / 10) (by omega) (by omega)
      rw [split, List.head?_append_of_ne_nil _ Nat.toDigits_ne_nil]
      exact above

theorem leads_toDigits (n : Nat) : Leads (Nat.toDigits 10 n) := by
  refine ⟨Nat.toDigits_ne_nil, fun ch more zero => ?_⟩
  cases n with
  | zero => cases zero
  | succ n =>
    have head := head_toDigits n.succ_pos
    rw [zero] at head
    exact head rfl

theorem le_ofDigitChars (ds : List Char) (start : Nat) : start ≤ Nat.ofDigitChars 10 ds start := by
  induction ds generalizing start with
  | nil => exact Nat.le_refl _
  | cons ch ds ih =>
    have next := ih (10 * start + (ch.toNat - '0'.toNat))
    exact Nat.le_trans (by omega) next

theorem significand_of_lt (ds : List Char) (start : Nat)
    (small : Nat.ofDigitChars 10 ds start < twoTo 64) :
    significand start ds = (Nat.ofDigitChars 10 ds start, ds.length, 0) := by
  induction ds generalizing start with
  | nil => rfl
  | cons ch ds ih =>
    have next : Nat.ofDigitChars 10 (ch :: ds) start =
      Nat.ofDigitChars 10 ds (10 * start + (ch.toNat - '0'.toNat)) := rfl
    rw [next] at small ⊢
    have fits := Nat.lt_of_le_of_lt (le_ofDigitChars ds _) small
    simp only [significand, if_pos fits, ih _ small, List.length_cons]

theorem digits_toDigits {n : Nat} {c : Cursor} {rest : List Char} (ends : Ends rest)
    (stands : c.rest = Nat.toDigits 10 n ++ rest) :
    c.digits = Nat.toDigits 10 n ∧ c.pastDigits.rest = rest := by
  have all : ∀ ch ∈ Nat.toDigits 10 n, Reading.isDigit ch = true :=
    fun ch known => isDigit_of_mem_toDigits known
  have append := digits_append (Nat.toDigits 10 n) ends
  rw [List.takeWhile_eq_self_iff.mpr all, List.dropWhile_eq_nil_iff.mpr all] at append
  rw [digits, pastDigits, pastAll_rest, stands]
  exact append

theorem number_toDigits {n : Nat} (small : n < twoTo 64) (negative : Bool) {c : Cursor}
    {rest : List Char} (ends : Ends rest) (stands : c.rest = Nat.toDigits 10 n ++ rest) :
    ∃ c', c.number negative = numberBehind negative n 0 c' ∧ c'.rest = rest := by
  obtain ⟨digits, behind⟩ := digits_toDigits ends stands
  have leads : Leads c.digits := by
    rw [digits]
    exact leads_toDigits n
  have value : Nat.ofDigitChars 10 (Nat.toDigits 10 n) 0 = n :=
    Nat.ofDigitChars_toDigits (by decide) (by decide)
  have whole := significand_of_lt (Nat.toDigits 10 n) 0 (by rwa [value])
  refine ⟨c.pastDigits, ?_, behind⟩
  rw [number_eq leads, digits, whole, value]

theorem numberBehind_whole (negative : Bool) (n : Nat) {c : Cursor} (ends : Ends c.rest) :
    numberBehind negative n 0 c =
      if !negative then .ok (.whole n, c)
      else if n = 0 ∨ twoTo 63 < n then .ok (.real (-Float.ofNat n), c)
      else .ok (.whole (-(n : Int)), c) := by
  have other (ch : Char) (mark : ch ≠ ',' ∧ ch ≠ '\n') : c.rest.head? ≠ some ch := by
    intro head
    obtain ⟨text, starts⟩ := List.head?_eq_some_iff.mp head
    rw [starts] at ends
    rcases ends with comma | line
    · exact mark.1 comma
    · exact mark.2 line
  rw [numberBehind, if_neg (other '.' (by decide)),
    if_neg (not_or.mpr ⟨other 'e' (by decide), other 'E' (by decide)⟩), if_neg (by simp)]

theorem isSpace_of_isDigit {ch : Char} (digit : Reading.isDigit ch = true) :
    isSpace ch = false := by
  refine Bool.eq_false_iff.mpr fun space => ?_
  simp only [isSpace, Bool.or_eq_true, beq_iff_eq] at space
  rcases space with ((rfl | rfl) | rfl) | rfl <;> cases digit

theorem written_natural {n : Nat} (small : n < twoTo 64) :
    Written (Nat.toDigits 10 n) (.number (.whole n)) := by
  intro rest c ends before
  have digits : Nat.toDigits 10 n ≠ [] := Nat.toDigits_ne_nil
  obtain ⟨ch, text, first⟩ := List.exists_cons_of_ne_nil digits
  have digit : Reading.isDigit ch = true := isDigit_of_mem_toDigits (n := n) (by simp [first])
  have mark : isSpace ch = false := isSpace_of_isDigit digit
  have stands : c.skip.rest = ch :: (text ++ rest) := by
    rw [first] at before
    exact before.cons mark
  obtain ⟨c', number, left⟩ := number_toDigits small false ends
    (stands.trans (by rw [first]; rfl))
  refine ⟨c', ?_, left ▸ before_rest c'⟩
  rw [kind_digit stands digit, number, numberBehind_whole false n (left ▸ ends)]
  rfl

theorem written_negative {n : Nat} (positive : 0 < n) (small : n ≤ twoTo 63) :
    Written ('-' :: Nat.toDigits 10 n) (.number (.whole (-(n : Int)))) := by
  intro rest c ends before
  have stands : c.skip.rest = '-' :: (Nat.toDigits 10 n ++ rest) := before.cons rfl
  have fits : n < twoTo 64 := Nat.lt_of_le_of_lt small (by decide)
  obtain ⟨c', number, left⟩ := number_toDigits fits true ends (next_rest stands)
  refine ⟨c', ?_, left ▸ before_rest c'⟩
  have plain : ¬ (n = 0 ∨ twoTo 63 < n) := by omega
  rw [kind_negative stands, number, numberBehind_whole true n (left ▸ ends), if_neg (by simp),
    if_neg plain]
  rfl

theorem toList_ofNat (n : Nat) : (toString (Int.ofNat n)).toList = Nat.toDigits 10 n :=
  String.toList_ofList

theorem toList_negSucc (n : Nat) :
    (toString (Int.negSucc n)).toList = '-' :: Nat.toDigits 10 (n + 1) := by
  show ("-" ++ String.ofList (Nat.toDigits 10 (n + 1))).toList = _
  rw [String.toList_append]
  exact congrArg ('-' :: ·) String.toList_ofList

/-- Whole numbers of 64 bits are read back. -/
theorem written_whole {n : Int} (low : -twoTo 63 ≤ n) (high : n < twoTo 64) :
    Written (toString n).toList (.number (.whole n)) := by
  cases n with
  | ofNat n =>
    rw [toList_ofNat]
    exact written_natural (Int.ofNat_lt.mp high)
  | negSucc n =>
    rw [toList_negSucc]
    refine written_negative n.succ_pos ?_
    rw [Int.negSucc_eq] at low
    exact_mod_cast neg_le_neg_iff.mp low

/-- A number starts with a minus sign or a digit. -/
def Signs (ch : Char) : Prop := ch = '-' ∨ Reading.isDigit ch = true

theorem Signs.other {ch mark : Char} (signs : Signs ch) (minus : mark ≠ '-')
    (digit : Reading.isDigit mark = false) : ch ≠ mark := by
  rintro rfl
  rcases signs with same | some
  · exact minus same
  · rw [digit] at some
    cases some

theorem signs_whole (n : Int) : ∃ ch text, (toString n).toList = ch :: text ∧ Signs ch := by
  cases n with
  | ofNat n =>
    rw [toList_ofNat]
    obtain ⟨ch, text, first⟩ := List.exists_cons_of_ne_nil (l := Nat.toDigits 10 n)
      Nat.toDigits_ne_nil
    exact ⟨ch, text, first, .inr (isDigit_of_mem_toDigits (n := n) (by simp [first]))⟩
  | negSucc n => exact ⟨'-', _, toList_negSucc n, .inl rfl⟩

theorem signs_restored {x : Float} (restored : Restored x) :
    ∃ ch text, (pretty (.real x)).toList.dropWhile isSpace = ch :: text ∧ Signs ch := by
  obtain ⟨n, d, -, read, -⟩ := restored.kind
  have alone : (ofText (pretty (.real x))).skip.rest =
      (pretty (.real x)).toList.dropWhile isSpace := skip_rest _
  rcases number_of_kind read with ⟨text, minus, -⟩ | ⟨ch, text, first, digit, -⟩
  · exact ⟨'-', text, alone.symm.trans minus, .inl rfl⟩
  · exact ⟨ch, text, alone.symm.trans first, .inr digit⟩

end Atom
end Docket.Json
