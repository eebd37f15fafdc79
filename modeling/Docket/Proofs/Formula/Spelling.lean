import Docket.Proofs.Formula.Scanning
import Docket.Proofs.Number.Plain
import Docket.Proofs.Text.Blank
import Docket.Proofs.Text.Lowering

/-! Spellings of a reference: its kind in capital or small letters and white space around its kind,
its name and its identifier. A name may hold any of the signs that part a reference, as long as it is
one that is read: without a closing bracket, trimmed, and without a hash sign unless an identifier
follows. Every spelling of such a reference is read as it again, the printed one among them. -/
namespace Docket.Reading

theorem natural_toDigits (n : Nat) : natural (Nat.toDigits 10 n) = n :=
  Nat.ofDigitChars_ten_toDigits

theorem unsigned?_toDigits {limit n : Nat} (small : n < limit) :
    unsigned? limit (Nat.toDigits 10 n) = some n := by
  have digits : (Nat.toDigits 10 n).all isDigit = true :=
    List.all_eq_true.mpr fun _ known => FloatFormat.digitsOf_isDigit known
  have read : natural? (Nat.toDigits 10 n) = some n := by
    rw [natural?, if_pos ⟨Nat.toDigits_ne_nil, digits⟩, natural_toDigits]
  unfold unsigned?
  split
  · rename_i rest signed
    rw [signed] at digits
    cases digits
  · simp [read, small]

theorem lt_of_unsigned? {limit n : Nat} {text : List Char} (read : unsigned? limit text = some n) :
    n < limit := of_decide_eq_true (Option.filter_eq_some_iff.mp read).2

end Docket.Reading

namespace Docket.Formula

/-- A word of the kind in any case, with white space around it or without. -/
def Kind.Spells (k : Kind) (text : List Char) : Prop :=
  ∃ word, word.map Char.toLower = k.word.toList.map Char.toLower ∧ Text.Padded word text

namespace Kind

theorem isAlpha_of_toLower {c : Char} (letter : c.toLower.isAlpha = true) : c.isAlpha = true := by
  unfold Char.toLower at letter
  split at letter
  · rename_i capital
    have upper : c.isUpper = true := by simpa [Char.isUpper] using capital
    rw [Char.isAlpha, upper, Bool.true_or]
  · exact letter

theorem ascii_of_isAlpha {c : Char} (letter : c.isAlpha = true) : c.toNat < 128 := by
  simp only [Char.isAlpha, Char.isUpper, Char.isLower, Bool.or_eq_true, Bool.and_eq_true,
    decide_eq_true_eq, UInt32.le_iff_toNat_le] at letter
  simp at letter ⊢
  omega

theorem isBlank_of_isAlpha {c : Char} (letter : c.isAlpha = true) : Text.isBlank c = false := by
  have apart : ∀ n < 128, (Char.ofNat n).isAlpha = true → Text.isBlank (Char.ofNat n) = false := by
    decide +kernel
  have visible := apart c.toNat (ascii_of_isAlpha letter)
  rw [Char.ofNat_toNat] at visible
  exact visible letter

section Spelled
variable {k : Kind} {word : List Char}

theorem letters (same : word.map Char.toLower = k.word.toList.map Char.toLower) :
    ∀ c ∈ word, c.isAlpha = true := by
  intro c known
  have small : c.toLower ∈ k.word.toList.map Char.toLower := by
    rw [← same]
    exact List.mem_map_of_mem known
  have all : (k.word.toList.map Char.toLower).all Char.isAlpha = true := by cases k <;> decide
  exact isAlpha_of_toLower (List.all_eq_true.mp all _ small)

theorem Spells.not_mem {text : List Char} (spells : k.Spells text) {c : Char}
    (visible : Text.isBlank c = false) (sign : c.isAlpha = false) : c ∉ text := by
  obtain ⟨word, same, padded⟩ := spells
  rw [padded.mem visible]
  intro known
  rw [letters same c known] at sign
  cases sign

theorem read?_of_spells {text : List Char} (spells : k.Spells text) : read? text = some k := by
  obtain ⟨word, same, padded⟩ := spells
  have trimmed : Text.trimChars text = word := by
    rw [padded.trimChars]
    exact Text.trimChars_of_visible fun c known => isBlank_of_isAlpha (letters same c known)
  have small : Text.lower (String.ofList word) = Text.lower k.word := by
    have plain : ∀ c ∈ k.word.toList, c.toNat < 128 := fun c known =>
      ascii_of_isAlpha (letters rfl c known)
    rw [Text.lower, Text.lower, String.toList_ofList, Text.lowerFrom_of_ascii plain,
      Text.lowerFrom_of_ascii fun c known => ascii_of_isAlpha (letters same c known), same]
  rw [read?, trimmed, small]
  cases k <;> decide

end Spelled
end Kind

/-- The texts between brackets that spell a reference: each part may have white space around it. -/
inductive Reference.Spells : Reference → List Char → Prop
  | plain {k : Kind} {name : String} {kind text : List Char} (word : k.Spells kind)
      (padded : Text.Padded name.toList text) : Spells ⟨k, name, none⟩ (kind ++ ':' :: text)
  | numbered {k : Kind} {name : String} {n : Nat} {kind text digits : List Char}
      (word : k.Spells kind) (padded : Text.Padded name.toList text)
      (number : Text.Padded (Nat.toDigits 10 n) digits) :
      Spells ⟨k, name, some n⟩ (kind ++ ':' :: (text ++ '#' :: digits))

/-- A reference that some text is read as. -/
structure Reference.Legible (r : Reference) : Prop where
  named : r.name.toList ≠ []
  trimmed : Text.trimChars r.name.toList = r.name.toList
  closed : ']' ∉ r.name.toList
  plain : r.id = none → '#' ∉ r.name.toList
  narrow : ∀ n ∈ r.id, n < twoTo 32

namespace Reference

theorem legible_of_read? {inner : List Char} {r : Reference} (closed : ']' ∉ inner)
    (read : read? inner = some r) : r.Legible := by
  simp only [read?, Option.bind_eq_bind, Option.bind_eq_some_iff] at read
  obtain ⟨⟨front, rest⟩, cut, kind, -, ⟨name, id⟩, found, made⟩ := read
  obtain ⟨rfl, -⟩ := Text.cutFirst?_eq_some.mp cut
  simp only at made
  split at made
  · cases made
  · rename_i some
    cases made
    have inside : name ⊆ rest ∧ (id = none → '#' ∉ name) ∧ ∀ n ∈ id, n < twoTo 32 := by
      rw [readName?] at found
      split at found
      · rename_i uncut
        cases found
        exact ⟨List.Subset.refl _, fun _ => Text.cutLast?_eq_none.mp uncut, by simp⟩
      · rename_i name text cut
        obtain ⟨n, number, same⟩ := Option.map_eq_some_iff.mp found
        cases same
        obtain ⟨rfl, -⟩ := Text.cutLast?_eq_some.mp cut
        refine ⟨List.subset_append_left _ _, by simp, fun m known => ?_⟩
        cases known
        exact Reading.lt_of_unsigned? number
    obtain ⟨part, plain, narrow⟩ := inside
    constructor
    · simpa using some
    · rw [String.toList_ofList, Text.trimChars_trimChars]
    · rw [String.toList_ofList, Text.mem_trimChars (by decide)]
      exact fun known => closed (by simp [part known])
    · rw [String.toList_ofList, Text.mem_trimChars (by decide)]
      exact plain
    · exact narrow

section Spelled
variable {r : Reference} {inner : List Char}

theorem read?_of_parts {k : Kind} {name : String} {id : Option Nat} {kind rest text : List Char}
    (legible : Legible ⟨k, name, id⟩) (word : k.Spells kind)
    (padded : Text.Padded name.toList text) (found : readName? rest = some (text, id)) :
    read? (kind ++ ':' :: rest) = some ⟨k, name, id⟩ := by
  have cut : Text.cutFirst? ':' (kind ++ ':' :: rest) = some (kind, rest) :=
    Text.cutFirst?_eq_some.mpr ⟨rfl, word.not_mem (by decide) (by decide)⟩
  have trimmed : Text.trimChars text = name.toList := padded.trimChars.trans legible.trimmed
  simp only [read?, Option.bind_eq_bind, cut, Kind.read?_of_spells word, found, Option.bind_some,
    trimmed]
  simp [legible.named]

theorem read?_of_spells (legible : r.Legible) (spells : r.Spells inner) : read? inner = some r := by
  have hash : Text.isBlank '#' = false := by decide
  cases spells with
  | @plain k name kind text word padded =>
    refine read?_of_parts legible word padded ?_
    have uncut : Text.cutLast? '#' text = none :=
      Text.cutLast?_eq_none.mpr fun known => legible.plain rfl ((padded.mem hash).mp known)
    rw [readName?, uncut]
  | @numbered k name n kind text digits word padded number =>
    refine read?_of_parts legible word padded ?_
    have behind : '#' ∉ digits := fun known =>
      Bool.false_ne_true (FloatFormat.digitsOf_isDigit ((number.mem hash).mp known))
    have trimmed : Text.trimChars digits = Nat.toDigits 10 n := by
      rw [number.trimChars]
      exact Text.trimChars_of_visible fun c known =>
        Reading.isBlank_of_isDigit (FloatFormat.digitsOf_isDigit known)
    have read := Reading.unsigned?_toDigits (legible.narrow n rfl)
    rw [← trimmed] at read
    rw [readName?, Text.cutLast?_eq_some.mpr ⟨rfl, behind⟩]
    simp only [read, Option.map_some]

theorem closed_of_spells (legible : r.Legible) (spells : r.Spells inner) : ']' ∉ inner := by
  have bracket : Text.isBlank ']' = false := by decide
  cases spells with
  | plain word padded =>
    have name := mt (padded.mem bracket).mp legible.closed
    simp [word.not_mem bracket (by decide), name]
  | @numbered k name n kind text digits word padded number =>
    have name := mt (padded.mem bracket).mp legible.closed
    have id : ']' ∉ digits := fun known =>
      Bool.false_ne_true (FloatFormat.digitsOf_isDigit ((number.mem bracket).mp known))
    simp [word.not_mem bracket (by decide), name, id]

end Spelled

/-- A reference is printed in one of its spellings, between brackets. -/
theorem display_spells (r : Reference) :
    ∃ inner, r.Spells inner ∧ r.display = String.ofList ('[' :: (inner ++ [']'])) := by
  obtain ⟨k, name, id⟩ := r
  have word : k.Spells k.word.toList := ⟨_, rfl, Text.padded_self _⟩
  cases id with
  | none =>
    refine ⟨_, .plain word (Text.padded_self _), ?_⟩
    simp [display, ← String.toList_inj, toString]
  | some n =>
    refine ⟨_, .numbered word (Text.padded_self _) (Text.padded_self _), ?_⟩
    simp [display, ← String.toList_inj, toString]

end Reference

theorem Lexeme.operator?_ne_reference {c : Char} {next : Option Char} {r : Reference} {n : Nat} :
    operator? c next ≠ some (.reference r, n) := by
  unfold operator?
  split <;> simp

theorem read?_of_scans {cs : List Char} {ts : List Token} (scans : Scans cs ts) {r : Reference}
    (known : .reference r ∈ ts) : ∃ inner, ']' ∉ inner ∧ Reference.read? inner = some r := by
  induction scans with
  | done => cases known
  | blank _ _ ih => exact ih known
  | token _ reads _ ih =>
    rcases List.mem_cons.mp known with same | known
    · cases reads with
      | reference closed read =>
        cases same
        exact ⟨_, closed, read⟩
      | number | ident => cases same
      | operator _ _ _ found =>
        subst same
        exact absurd found Lexeme.operator?_ne_reference
    · exact ih known

theorem scan_bracketed {inner : List Char} {r : Reference} (closed : ']' ∉ inner)
    (read : Reference.read? inner = some r) :
    scan (String.ofList ('[' :: (inner ++ [']']))) =
      .ok [⟨.reference r, 0, '[' :: (inner ++ [']'])⟩] := by
  have opening : Text.isBlank '[' = false := by decide
  have reads : Reads ('[' :: (inner ++ [']'])) (.reference r) [] := .reference closed read
  have token := Lexeme.readToken_complete reads 0
  rw [List.append_nil] at token
  rw [scan, String.toList_ofList, Lexeme.scanFrom, if_neg (by simp [opening])]
  simp only [token]
  simp [Lexeme.scanFrom]

/-- A reference of a formula is printed as a text that scans to it alone, and so does every other
spelling of it. -/
theorem scan_respelled {source : String} {lexemes : List Lexeme} {r : Reference}
    (scanned : scan source = .ok lexemes) (known : .reference r ∈ lexemes.map Lexeme.token) :
    scan r.display = .ok [⟨.reference r, 0, r.display.toList⟩] ∧
      ∀ inner, r.Spells inner → scan (String.ofList ('[' :: (inner ++ [']']))) =
        .ok [⟨.reference r, 0, '[' :: (inner ++ [']'])⟩] := by
  obtain ⟨inner, closed, read⟩ := read?_of_scans (Lexeme.scanFrom_sound scanned) known
  have legible := Reference.legible_of_read? closed read
  have respelled (inner : List Char) (spells : r.Spells inner) :=
    scan_bracketed (Reference.closed_of_spells legible spells)
      (Reference.read?_of_spells legible spells)
  refine ⟨?_, respelled⟩
  obtain ⟨inner, spells, printed⟩ := r.display_spells
  rw [printed, respelled inner spells, String.toList_ofList]

/-- A name with a hash sign, a colon and a bracket, and an identifier with a leading zero. -/
theorem scan_respelled_hashed :
    let tax : Reference := ⟨.calculated, "Tax #[a: b", some 7⟩
    (scan "2 * [CALCULATED: Tax #[a: b # +07 ]").toOption.map (·.map Lexeme.token) =
        some [.number 2.0, .star, .reference tax] ∧
      tax.display = "[Calculated:Tax #[a: b#7]" ∧
      scan tax.display = .ok [⟨.reference tax, 0, tax.display.toList⟩] ∧
      scan "[ cALCULATED:Tax #[a: b#\u00A07]" =
        .ok [⟨.reference tax, 0, "[ cALCULATED:Tax #[a: b#\u00A07]".toList⟩] := by
  intro tax
  have tokens : (scan "2 * [CALCULATED: Tax #[a: b # +07 ]").toOption.map (·.map Lexeme.token) =
      some [.number 2.0, .star, .reference tax] := by
    decide +kernel
  refine ⟨tokens, by decide, ?_⟩
  cases scanned : scan "2 * [CALCULATED: Tax #[a: b # +07 ]" with
  | error e =>
    rw [scanned] at tokens
    cases tokens
  | ok lexemes =>
    rw [scanned] at tokens
    have among : lexemes.map Lexeme.token = [.number 2.0, .star, .reference tax] :=
      Option.some.inj tokens
    have known : .reference tax ∈ lexemes.map Lexeme.token := by simp [among]
    obtain ⟨printed, respelled⟩ := scan_respelled scanned known
    have word : Kind.calculated.Spells " cALCULATED".toList :=
      ⟨"cALCULATED".toList, by decide, [' '], [], List.forall_mem_singleton.mpr (by decide), rfl⟩
    have number : Text.Padded (Nat.toDigits 10 7) "\u00A07".toList :=
      ⟨['\u00A0'], [], List.forall_mem_singleton.mpr (by decide), rfl⟩
    exact ⟨printed, respelled _ (.numbered word (Text.padded_self _) number)⟩

end Docket.Formula
