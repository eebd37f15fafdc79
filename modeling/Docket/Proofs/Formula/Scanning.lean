import Docket.Formula.Token

/-! What a scan reads, told without positions. A token is read off a stretch of text in view of
what follows, and a text scans to tokens if it falls into such stretches and white space. -/
namespace Docket.Text

theorem cutFirst?_eq_some {c : Char} {cs before after : List Char} :
    cutFirst? c cs = some (before, after) ↔ cs = before ++ c :: after ∧ c ∉ before := by
  induction cs generalizing before with
  | nil => simp [cutFirst?]
  | cons d rest ih =>
    unfold cutFirst?
    split
    · rename_i same
      subst d
      cases before with
      | nil => simp
      | cons b before =>
        simp only [Option.some.injEq, Prod.mk.injEq, List.cons_append, List.cons.injEq]
        constructor
        · rintro ⟨none, _⟩
          cases none
        · rintro ⟨⟨rfl, _⟩, absent⟩
          exact absurd List.mem_cons_self absent
    · rename_i other
      simp only [Option.map_eq_some_iff, Prod.mk.injEq, Prod.exists]
      constructor
      · rintro ⟨a, b, cut, rfl, rfl⟩
        obtain ⟨rfl, absent⟩ := ih.mp cut
        refine ⟨rfl, fun known => ?_⟩
        rcases List.mem_cons.mp known with rfl | known
        · exact other rfl
        · exact absent known
      · rintro ⟨whole, absent⟩
        cases before with
        | nil => exact absurd (List.cons.inj whole).1 other
        | cons b before =>
          obtain ⟨rfl, tail⟩ := List.cons.inj whole
          refine ⟨before, after, ih.mpr ⟨tail, fun known => ?_⟩, rfl, rfl⟩
          exact absent (List.mem_cons_of_mem _ known)

theorem cutLast?_eq_some {c : Char} {cs before after : List Char} :
    cutLast? c cs = some (before, after) ↔ cs = before ++ c :: after ∧ c ∉ after := by
  have turned : cutLast? c cs = some (before, after) ↔
      cutFirst? c cs.reverse = some (after.reverse, before.reverse) := by
    rw [cutLast?, Option.map_eq_some_iff]
    constructor
    · rintro ⟨⟨a, b⟩, found, same⟩
      cases same
      rw [found, List.reverse_reverse, List.reverse_reverse]
    · intro found
      exact ⟨_, found, by simp⟩
  rw [turned, cutFirst?_eq_some, List.mem_reverse, List.reverse_eq_iff]
  simp

theorem cutLast?_eq_none {c : Char} {cs : List Char} : cutLast? c cs = none ↔ c ∉ cs := by
  constructor
  · intro none known
    obtain ⟨after, before, parts, absent⟩ :=
      List.eq_append_cons_of_mem (List.mem_reverse.mpr known)
    have found : cutLast? c cs = some (before.reverse, after.reverse) := by
      refine cutLast?_eq_some.mpr ⟨?_, by rwa [List.mem_reverse]⟩
      rw [← List.reverse_reverse cs, parts]
      simp
    rw [none] at found
    cases found
  · intro absent
    refine Option.eq_none_iff_forall_ne_some.mpr fun ⟨before, after⟩ cut => ?_
    rw [(cutLast?_eq_some.mp cut).1] at absent
    simp at absent

end Docket.Text

namespace Docket.Formula

abbrev StartsNumber (c : Char) : Prop := Reading.isDigit c = true ∨ c = '.'

/-- A stretch of text that a token is read off when `after` follows. -/
inductive Reads : List Char → Token → List Char → Prop
  | number {c : Char} {text after : List Char} {x : Float} (starts : StartsNumber c)
      (whole : Lexeme.numberText false (c :: text ++ after) = c :: text)
      (value : Reading.magnitude? (c :: text) = some x) : Reads (c :: text) (.number x) after
  | reference {inner after : List Char} {r : Reference} (closed : ']' ∉ inner)
      (read : Reference.read? inner = some r) :
      Reads ('[' :: (inner ++ [']'])) (.reference r) after
  | ident {c : Char} {word after : List Char} (apart : ¬ StartsNumber c) (opening : c ≠ '[')
      (starts : Lexeme.isIdentStart c = true)
      (whole : (word ++ after).takeWhile Lexeme.isIdentChar = word) :
      Reads (c :: word) (.ident (String.ofList (c :: word))) after
  | operator {c : Char} {tail after : List Char} {t : Token} (apart : ¬ StartsNumber c)
      (opening : c ≠ '[') (starts : Lexeme.isIdentStart c = false)
      (found : Lexeme.operator? c (tail ++ after).head? = some (t, tail.length + 1)) :
      Reads (c :: tail) t after

/-- A text that falls into white space and stretches that tokens are read off. -/
inductive Scans : List Char → List Token → Prop
  | done : Scans [] []
  | blank {c : Char} {rest : List Char} {ts : List Token} (blank : Text.isBlank c = true)
      (more : Scans rest ts) : Scans (c :: rest) ts
  | token {c : Char} {text after : List Char} {t : Token} {ts : List Token}
      (visible : Text.isBlank c = false) (reads : Reads (c :: text) t after)
      (more : Scans after ts) : Scans (c :: text ++ after) (t :: ts)

namespace Lexeme

theorem numberText_prefix (pointed : Bool) (cs : List Char) :
    ∃ after, cs = numberText pointed cs ++ after := by
  induction cs generalizing pointed with
  | nil => exact ⟨[], rfl⟩
  | cons c rest ih =>
    unfold numberText
    split
    · obtain ⟨after, h⟩ := ih pointed
      exact ⟨after, congrArg (c :: ·) h⟩
    · split
      · obtain ⟨after, h⟩ := ih true
        exact ⟨after, congrArg (c :: ·) h⟩
      · exact ⟨c :: rest, rfl⟩

theorem numberText_cons {c : Char} (starts : StartsNumber c) (rest : List Char) :
    ∃ text, numberText false (c :: rest) = c :: text := by
  unfold numberText
  split
  · exact ⟨_, rfl⟩
  · rename_i other
    rw [if_pos ⟨starts.resolve_left other, rfl⟩]
    exact ⟨_, rfl⟩

/-- An operator has one character, or two of which the second is the next. -/
theorem operator?_length {c : Char} {next : Option Char} {t : Token} {n : Nat}
    (found : operator? c next = some (t, n)) : n = 1 ∨ n = 2 ∧ ∃ d, next = some d ∧ d ≠ '[' := by
  unfold operator? at found
  split at found <;> cases found
  all_goals first | exact Or.inl rfl | exact Or.inr ⟨rfl, _, rfl, by decide⟩

theorem readToken_sound {position : Nat} {c : Char} {rest : List Char} {t : Token} {n : Nat}
    (read : readToken position c rest = .ok (t, n)) :
    ∃ text after, rest = text ++ after ∧ n = text.length + 1 ∧ Reads (c :: text) t after := by
  simp only [readToken] at read
  split at read
  · rename_i starts
    obtain ⟨text, number⟩ := numberText_cons starts rest
    obtain ⟨after, whole⟩ := numberText_prefix false (c :: rest)
    rw [number] at read whole
    split at read
    · rename_i x value
      cases read
      obtain rfl : rest = text ++ after := (List.cons.inj whole).2
      exact ⟨text, after, rfl, rfl, .number starts number value⟩
    · cases read
  · rename_i apart
    split at read
    · rename_i opening
      subst c
      split at read
      · cases read
      · rename_i inner after cut
        obtain ⟨rfl, closed⟩ := Text.cutFirst?_eq_some.mp cut
        split at read
        · rename_i r reference
          cases read
          exact ⟨inner ++ [']'], after, by simp, by simp, .reference closed reference⟩
        · cases read
    · rename_i opening
      split at read
      · rename_i starts
        cases read
        refine ⟨rest.takeWhile isIdentChar, rest.dropWhile isIdentChar,
          List.takeWhile_append_dropWhile.symm, rfl, .ident apart opening starts ?_⟩
        rw [List.takeWhile_append_dropWhile]
      · rename_i starts
        split at read
        · rename_i found operator
          cases read
          rcases operator?_length operator with rfl | ⟨rfl, d, next, _⟩
          · exact ⟨[], rest, rfl, rfl, .operator apart opening (by simpa using starts) operator⟩
          · obtain ⟨after, rfl⟩ := List.head?_eq_some_iff.mp next
            exact ⟨[d], after, rfl, rfl, .operator apart opening (by simpa using starts) operator⟩
        · cases read

theorem readToken_complete {c : Char} {text after : List Char} {t : Token}
    (reads : Reads (c :: text) t after) (position : Nat) :
    readToken position c (text ++ after) = .ok (t, text.length + 1) := by
  unfold readToken
  cases reads with
  | number starts whole value =>
    rw [if_pos starts]
    rw [List.cons_append] at whole
    simp only [whole, value, List.length_cons]
  | @reference inner after r closed read =>
    have cut : Text.cutFirst? ']' (inner ++ [']'] ++ after) = some (inner, after) :=
      Text.cutFirst?_eq_some.mpr ⟨by simp, closed⟩
    rw [if_neg (by decide), if_pos rfl]
    simp only [cut, read]
    simp
  | ident apart opening starts whole =>
    rw [if_neg apart, if_neg opening, if_pos starts]
    simp only [whole, List.length_cons]
  | operator apart opening starts found =>
    rw [if_neg apart, if_neg opening, if_neg (by simp [starts])]
    simp only [found]

theorem scanFrom_sound {position : Nat} {cs : List Char} {lexemes : List Lexeme}
    (scanned : scanFrom position cs = .ok lexemes) : Scans cs (lexemes.map Lexeme.token) := by
  fun_induction scanFrom position cs generalizing lexemes with
  | case1 position =>
    cases scanned
    exact .done
  | case2 position c rest blank ih => exact .blank blank (ih scanned)
  | case3 => cases scanned
  | case4 => cases scanned
  | case5 position c rest visible t n read more scanned' ih =>
    cases scanned
    obtain ⟨text, after, rfl, rfl, reads⟩ := readToken_sound read
    have rest : (text ++ after).drop (text.length + 1 - 1) = after := List.drop_left
    rw [rest] at ih scanned'
    exact .token (by simpa using visible) reads (ih scanned')

theorem scanFrom_complete {cs : List Char} {ts : List Token} (scans : Scans cs ts)
    (position : Nat) : ∃ lexemes, scanFrom position cs = .ok lexemes ∧
      lexemes.map Lexeme.token = ts := by
  induction scans generalizing position with
  | done => exact ⟨[], by rw [scanFrom], rfl⟩
  | blank blank more ih =>
    rw [scanFrom, if_pos blank]
    exact ih (position + 1)
  | @token c text after t ts visible reads more ih =>
    obtain ⟨lexemes, scanned, rfl⟩ := ih (position + 1 + text.length)
    refine ⟨⟨t, position, c :: text⟩ :: lexemes, ?_, rfl⟩
    rw [List.cons_append, scanFrom, if_neg (by simp [visible])]
    simp only [readToken_complete reads, Nat.add_sub_cancel, List.drop_left, scanned]
    rw [← List.cons_append, ← List.length_cons, List.take_left]

end Lexeme

/-- A scan succeeds exactly on the texts that scan to tokens, with these tokens. -/
theorem scan_iff_scans {source : String} {ts : List Token} :
    (∃ lexemes, scan source = .ok lexemes ∧ lexemes.map Lexeme.token = ts) ↔
      Scans source.toList ts := by
  constructor
  · rintro ⟨lexemes, scanned, rfl⟩
    exact Lexeme.scanFrom_sound scanned
  · intro scans
    exact Lexeme.scanFrom_complete scans 0

end Docket.Formula
