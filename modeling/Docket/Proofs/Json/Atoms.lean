import Mathlib
import Docket.Json.Decoder
import Docket.Proofs.Json.Pretty
import Docket.Proofs.Number.Plain

/-! Atoms read back. What stands behind an atom is the end of the text, a comma or the end of a
line, and reading stops there; how far a cursor has come in lines and columns never matters. -/
namespace Docket.Json

/-- What may follow a value. -/
def Ends : List Char → Prop
  | [] => True
  | c :: _ => c = ',' ∨ c = '\n'

theorem Ends.digits {rest : List Char} (ends : Ends rest) :
    rest.takeWhile Reading.isDigit = [] ∧ rest.dropWhile Reading.isDigit = rest := by
  cases rest with
  | nil => exact ⟨rfl, rfl⟩
  | cons c rest => rcases ends with rfl | rfl <;> exact ⟨rfl, rfl⟩

namespace Cursor

theorem next_rest {c : Cursor} {ch : Char} {rest : List Char} (stands : c.rest = ch :: rest) :
    c.next.rest = rest := by
  obtain ⟨text, line, column⟩ := c
  subst stands
  rw [next]
  split
  · contradiction
  · rename_i same
    exact (List.cons.inj same).2.symm
  · rename_i same
    exact (List.cons.inj same).2.symm

theorem pastAll_rest (p : Char → Bool) (c : Cursor) : (c.pastAll p).rest = c.rest.dropWhile p := by
  have go (text : List Char) (c : Cursor) (stands : c.rest = text) :
      (pastAll.go p text c).rest = text.dropWhile p := by
    induction text generalizing c with
    | nil => exact stands
    | cons ch text ih =>
      rw [pastAll.go, List.dropWhile_cons]
      split
      · exact ih c.next (next_rest stands)
      · exact stands
  exact go c.rest c rfl

theorem skip_rest (c : Cursor) : c.skip.rest = c.rest.dropWhile isSpace := pastAll_rest isSpace c

theorem skip_skip (c : Cursor) : c.skip.skip.rest = c.skip.rest := by
  rw [skip_rest, skip_rest, List.dropWhile_idempotent]

/-- Between a cursor and a text there are at most spaces. -/
def Before (c : Cursor) (text : List Char) : Prop := c.skip.rest = text.dropWhile isSpace

theorem before_rest (c : Cursor) : c.Before c.rest := skip_rest c

theorem Before.skip {c : Cursor} {text : List Char} (before : c.Before text) :
    c.skip.Before text := (skip_skip c).trans before

theorem Before.cons {c : Cursor} {ch : Char} {text : List Char} (before : c.Before (ch :: text))
    (mark : isSpace ch = false) : c.skip.rest = ch :: text := by
  rw [before, List.dropWhile_cons, mark]
  rfl

theorem word_rest (more : List Char) {c : Cursor} {rest : List Char}
    (stands : c.rest = more ++ rest) : ∃ c', word more c = .ok c' ∧ c'.rest = rest := by
  induction more generalizing c with
  | nil => exact ⟨c, rfl, stands⟩
  | cons ch more ih =>
    obtain ⟨c', read, left⟩ := ih (next_rest stands)
    refine ⟨c', ?_, left⟩
    rw [word, stands]
    exact (if_pos rfl).trans read

end Cursor

/-- Where this text stands, reading takes an atom and stops behind it. -/
def Atom.Written (text : List Char) (a : Atom) : Prop :=
  ∀ (rest : List Char) (c : Cursor), Ends rest → c.Before (text ++ rest) →
    ∃ c', c.kind = .ok (.atom a, c') ∧ c'.Before rest

namespace Atom
open Cursor

theorem written_null : Written "null".toList .null := by
  intro rest c ends before
  have stands : c.skip.rest = 'n' :: (['u', 'l', 'l'] ++ rest) := before.cons rfl
  obtain ⟨c', read, left⟩ := word_rest ['u', 'l', 'l'] (next_rest stands)
  refine ⟨c', ?_, left ▸ before_rest c'⟩
  simp only [kind, stands, read]
  rfl

theorem written_bool (b : Bool) : Written (if b then "true" else "false").toList (.bool b) := by
  intro rest c ends before
  cases b with
  | true =>
    have stands : c.skip.rest = 't' :: (['r', 'u', 'e'] ++ rest) := before.cons rfl
    obtain ⟨c', read, left⟩ := word_rest ['r', 'u', 'e'] (next_rest stands)
    refine ⟨c', ?_, left ▸ before_rest c'⟩
    simp only [kind, stands, read]
    rfl
  | false =>
    have stands : c.skip.rest = 'f' :: (['a', 'l', 's', 'e'] ++ rest) := before.cons rfl
    obtain ⟨c', read, left⟩ := word_rest ['a', 'l', 's', 'e'] (next_rest stands)
    refine ⟨c', ?_, left ▸ before_rest c'⟩
    simp only [kind, stands, read]
    rfl

/-- How a character stands inside quotes. -/
theorem escape_cases (ch : Char) :
    (escape ch = [ch] ∧ ch ≠ '"' ∧ ch ≠ '\\' ∧ 32 ≤ ch.toNat) ∨
      (∃ e, escape ch = ['\\', e] ∧ e ≠ 'u' ∧ shortEscape? e = some ch) ∨
      (escape ch = '\\' :: 'u' :: hex4 ch.toNat ∧ ch.toNat < 32) := by
  rw [escape]
  split
  · rename_i mark
    have known : ch = '"' ∨ ch = '\\' := by simpa using mark
    rcases known with rfl | rfl
    · exact .inr (.inl ⟨'"', rfl, by decide, rfl⟩)
    · exact .inr (.inl ⟨'\\', rfl, by decide, rfl⟩)
  rename_i plain
  have other : ch ≠ '"' ∧ ch ≠ '\\' := by simpa using plain
  split
  · exact .inr (.inl ⟨'n', rfl, by decide, by simp_all [shortEscape?]⟩)
  split
  · exact .inr (.inl ⟨'r', rfl, by decide, by simp_all [shortEscape?]⟩)
  split
  · exact .inr (.inl ⟨'t', rfl, by decide, by simp_all [shortEscape?]⟩)
  split
  · exact .inr (.inl ⟨'b', rfl, by decide, by simp_all [shortEscape?]⟩)
  split
  · exact .inr (.inl ⟨'f', rfl, by decide, by simp_all [shortEscape?]⟩)
  split
  · rename_i control
    exact .inr (.inr ⟨rfl, control⟩)
  · rename_i printed
    exact .inl ⟨rfl, other.1, other.2, not_lt.mp printed⟩

theorem hexNumber?_hex4 : ∀ n < 32, ∃ a b c d, hex4 n = [a, b, c, d] ∧
    hexNumber? [a, b, c, d] = some n := by
  have read : ∀ n < 32, hexNumber? (hex4 n) = some n ∧ (hex4 n).length = 4 := by decide
  intro n small
  obtain ⟨number, four⟩ := read n small
  match digits : hex4 n, four with
  | [a, b, c, d], _ => exact ⟨a, b, c, d, rfl, by rw [← digits]; exact number⟩

theorem unicodeEscape_control {ch : Char} (control : ch.toNat < 32) {c : Cursor}
    {rest : List Char} (stands : c.rest = hex4 ch.toNat ++ rest) :
    ∃ c', c.unicodeEscape = .ok (ch, c') ∧ c'.rest = rest := by
  obtain ⟨w, x, y, z, digits, number⟩ := hexNumber?_hex4 ch.toNat control
  rw [digits] at stands
  have behind : c.next.next.next.next.rest = rest :=
    next_rest (next_rest (next_rest (next_rest stands)))
  refine ⟨c.next.next.next.next, ?_, behind⟩
  have four : c.rest.take 4 = [w, x, y, z] := by rw [stands]; rfl
  have high : ¬ (0xDC00 ≤ ch.toNat ∧ ch.toNat ≤ 0xDFFF) := by omega
  have low : ch.toNat < 0xD800 ∨ 0xDBFF < ch.toNat := by omega
  have hex : c.hexEscape = .ok (ch.toNat, c.next.next.next.next) := by
    rw [hexEscape, four]
    simp only [number]
  simp only [unicodeEscape, hex, bind, Except.bind, if_neg high, if_pos low, pure, Except.pure,
    Char.ofNat_toNat]

theorem stringRest_escape (ch b : Char) (bound seen : List Char) {c : Cursor}
    {rest : List Char} (stands : c.rest = escape ch ++ rest) :
    ∃ c', stringRest (b :: bound) seen c = stringRest bound (ch :: seen) c' ∧ c'.rest = rest := by
  rcases escape_cases ch with ⟨plain, quote, slash, printed⟩ | ⟨e, short, other, known⟩ |
    ⟨long, control⟩
  · rw [plain] at stands
    refine ⟨c.next, ?_, next_rest stands⟩
    rw [stringRest, stands]
    simp [not_lt.mpr printed]
  · rw [short] at stands
    have behind : c.next.rest = e :: rest := next_rest stands
    have read : c.next.escaped = .ok (ch, c.next.next) := by
      rw [escaped, behind]
      simp [known]
    refine ⟨c.next.next, ?_, next_rest behind⟩
    rw [stringRest, stands]
    simp only [List.cons_append, read]
    rfl
  · rw [long] at stands
    have behind : c.next.rest = 'u' :: (hex4 ch.toNat ++ rest) := next_rest stands
    obtain ⟨c', read, left⟩ := unicodeEscape_control control (next_rest behind)
    have escape : c.next.escaped = .ok (ch, c') := by
      rw [escaped, behind]
      exact read
    refine ⟨c', ?_, left⟩
    rw [stringRest, stands]
    simp only [List.cons_append, escape]
    rfl

theorem escape_ne_nil (ch : Char) : escape ch ≠ [] := by
  rcases escape_cases ch with ⟨form, -⟩ | ⟨e, form, -⟩ | ⟨form, -⟩ <;> simp [form]

/-- A string is read back character by character; `text` is what is left of it. -/
theorem stringRest_quoted (text seen : List Char) {bound : List Char} {c : Cursor}
    {rest : List Char} (stands : c.rest = text.flatMap escape ++ '"' :: rest)
    (room : text.length < bound.length) :
    ∃ c', stringRest bound seen c = .ok (String.ofList (seen.reverse ++ text), c') ∧
      c'.rest = rest := by
  induction text generalizing bound seen c with
  | nil =>
    obtain ⟨b, bound, rfl⟩ := List.exists_cons_of_length_pos room
    refine ⟨c.next, ?_, next_rest stands⟩
    rw [stringRest, stands]
    simp
  | cons ch text ih =>
    obtain ⟨b, bound, rfl⟩ := List.exists_cons_of_length_pos (Nat.zero_lt_of_lt room)
    rw [List.flatMap_cons, List.append_assoc] at stands
    obtain ⟨c₁, first, behind⟩ := stringRest_escape ch b bound seen stands
    obtain ⟨c', read, left⟩ := ih (ch :: seen) behind (Nat.lt_of_succ_lt_succ room)
    refine ⟨c', ?_, left⟩
    rw [first, read, List.reverse_cons, List.append_assoc]
    rfl

theorem length_le_flatMap_escape (text : List Char) :
    text.length ≤ (text.flatMap escape).length := by
  induction text with
  | nil => exact Nat.le_refl _
  | cons ch text ih =>
    have some := List.length_pos_iff.mpr (escape_ne_nil ch)
    rw [List.flatMap_cons, List.length_append, List.length_cons]
    omega

/-- A quoted string is read back behind its opening quote. -/
theorem string_quoted (s : String) {c : Cursor} {rest : List Char}
    (stands : c.rest = s.toList.flatMap escape ++ '"' :: rest) :
    ∃ c', c.string = .ok (s, c') ∧ c'.rest = rest := by
  -- Escaping makes no text shorter, so what is left of the text bounds the string.
  have room : s.toList.length < c.rest.length := by
    have shorter := length_le_flatMap_escape s.toList
    rw [stands, List.length_append, List.length_cons]
    omega
  obtain ⟨c', read, left⟩ := stringRest_quoted s.toList [] stands room
  refine ⟨c', ?_, left⟩
  rw [Cursor.string, read, List.reverse_nil, List.nil_append, String.ofList_toList]

theorem toList_quote (s : String) :
    (quote s).toList = '"' :: (s.toList.flatMap escape ++ ['"']) := by
  rw [quote, String.toList_ofList]
  rfl

theorem written_string (s : String) : Written (quote s).toList (.string s) := by
  intro rest c ends before
  rw [toList_quote, List.cons_append, List.append_assoc] at before
  have stands : c.skip.rest = '"' :: (s.toList.flatMap escape ++ '"' :: rest) := before.cons rfl
  obtain ⟨c', read, left⟩ := string_quoted s (next_rest stands)
  refine ⟨c', ?_, left ▸ before_rest c'⟩
  simp only [kind, stands, read]
  rfl

end Atom
end Docket.Json
