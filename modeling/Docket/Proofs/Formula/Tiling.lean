import Docket.Proofs.Formula.Blaming
import Docket.Proofs.Formula.Substitution
import Docket.Proofs.Text.Blank

/-! Where tokens stand. The lexemes of a text lie in it one behind the other with white space
between them, so more white space between them only moves them along. What is wrong with a text is
told at the place where it is: at a character that starts no token, or at a token that does not
fit. -/
namespace Docket

namespace Text

theorem blanks_not_alphanumeric : ∀ b ∈ blanks, isAlphanumeric (Char.ofNat b) = false := by
  decide +kernel

theorem isAlphanumeric_of_isBlank {c : Char} (blank : isBlank c = true) :
    isAlphanumeric c = false := by
  have apart := blanks_not_alphanumeric _ ((isBlank_iff c).mp blank)
  rwa [Char.ofNat_toNat] at apart

theorem ne_of_isBlank {c d : Char} (blank : isBlank c = true) (visible : isBlank d = false) :
    c ≠ d := by
  rintro rfl
  rw [visible] at blank
  cases blank

end Text

namespace Formula
open Text (isBlank)

namespace Lexeme

theorem not_startsNumber_of_isBlank {c : Char} (blank : isBlank c = true) : ¬ StartsNumber c := by
  intro starts
  rw [visible_of_startsNumber starts] at blank
  cases blank

theorem isIdentChar_of_isBlank {c : Char} (blank : isBlank c = true) : isIdentChar c = false := by
  have other := Text.ne_of_isBlank blank (d := '_') (by decide)
  simp [isIdentChar, Text.isAlphanumeric_of_isBlank blank, other]

/-- An operator of one character is one whether or not anything follows. -/
theorem operator?_alone {c : Char} {next : Option Char} {t : Token}
    (found : operator? c next = some (t, 1)) : operator? c none = some (t, 1) := by
  unfold operator? at found
  split at found <;> cases found <;> rfl

end Lexeme

/-- Texts behind a token that end it at the same place: one begins like the other, or with white
space. -/
def Ends (after after' : List Char) : Prop :=
  after'.head? = after.head? ∨ ∃ b ∈ after'.head?, isBlank b = true

section Ends
variable {after after' : List Char} (ends : Ends after after')
include ends

theorem Ends.stops {p : Char → Prop} (blank : ∀ b, isBlank b = true → p b) :
    after'.head? = after.head? ∨ ∀ c ∈ after'.head?, p c := by
  refine ends.imp_right fun ⟨b, first, white⟩ c known => ?_
  cases Option.mem_unique known first
  exact blank _ white

theorem Reads.follow {text : List Char} {t : Token} (reads : Reads text t after) :
    Reads text t after' := by
  cases reads with
  | number starts whole value =>
    refine .number starts (Lexeme.numberText_follow (ends.stops fun b white => ?_) whole) value
    exact Lexeme.not_startsNumber_of_isBlank white
  | reference closed read => exact .reference closed read
  | ident apart opening starts whole =>
    refine .ident apart opening starts (takeWhile_follow (ends.stops fun b white => ?_) whole)
    exact Lexeme.isIdentChar_of_isBlank white
  | @operator c tail _ _ apart opening starts found =>
    refine .operator apart opening starts ?_
    cases tail with
    | cons d tail => exact found
    | nil =>
      rcases ends with same | ⟨b, first, white⟩
      · rwa [List.nil_append, same]
      · have plain : b ∉ ['=', '>', '&', '|'] := by
          simp only [List.mem_cons, List.not_mem_nil, or_false]
          rintro (rfl | rfl | rfl | rfl) <;> cases white
        rw [List.nil_append, Option.mem_def.mp first, operator?_unpaired c plain]
        exact Lexeme.operator?_alone found

end Ends

/-- A text that starts at an offset, cut into lexemes and white space. -/
inductive Laid : Nat → List Char → List Lexeme → Prop
  | done {position : Nat} : Laid position [] []
  | blank {position : Nat} {c : Char} {rest : List Char} {ls : List Lexeme}
      (blank : isBlank c = true) (more : Laid (position + 1) rest ls) :
      Laid position (c :: rest) ls
  | lexeme {position : Nat} {c : Char} {text after : List Char} {t : Token} {ls : List Lexeme}
      (visible : isBlank c = false) (reads : Reads (c :: text) t after)
      (more : Laid (position + (text.length + 1)) after ls) :
      Laid position (c :: text ++ after) (⟨t, position, c :: text⟩ :: ls)

namespace Lexeme

/-- The offset behind the last character of a lexeme. -/
def stop (l : Lexeme) : Nat := l.start + l.text.length

theorem laid_of_scanFrom {position : Nat} {cs : List Char} {lexemes : List Lexeme}
    (scanned : scanFrom position cs = .ok lexemes) : Laid position cs lexemes := by
  fun_induction scanFrom position cs generalizing lexemes with
  | case1 position =>
    cases scanned
    exact .done
  | case2 position c rest blank ih => exact .blank blank (ih scanned)
  | case3 => cases scanned
  | case4 => cases scanned
  | case5 position c rest visible t n read more scanned' ih =>
    cases scanned
    obtain ⟨text, after, rfl, rfl, reads⟩ := readToken_sound read
    have rest : (text ++ after).drop (text.length + 1 - 1) = after := List.drop_left
    have place : position + 1 + (text.length + 1 - 1) = position + (text.length + 1) := by omega
    rw [rest, place] at ih
    rw [rest, place] at scanned'
    have taken : (c :: (text ++ after)).take (text.length + 1) = c :: text := by
      rw [← List.cons_append, ← List.length_cons, List.take_left]
    rw [taken]
    exact .lexeme (by simpa using visible) reads (ih scanned')

theorem scanFrom_of_laid {position : Nat} {cs : List Char} {lexemes : List Lexeme}
    (laid : Laid position cs lexemes) : scanFrom position cs = .ok lexemes := by
  induction laid with
  | done => rw [scanFrom]
  | blank blank more ih => rw [scanFrom, if_pos blank, ih]
  | @lexeme position c text after t ls visible reads more ih =>
    have place : position + 1 + text.length = position + (text.length + 1) := by omega
    rw [List.cons_append, scanFrom, if_neg (by simp [visible])]
    simp only [readToken_complete reads, Nat.add_sub_cancel, List.drop_left, place, ih]
    rw [← List.cons_append, ← List.length_cons, List.take_left]

end Lexeme

theorem Reads.ne_nil {text after : List Char} {t : Token} (reads : Reads text t after) :
    text ≠ [] := by
  cases reads <;> simp

namespace Laid

variable {position : Nat} {cs : List Char} {ls : List Lexeme} (laid : Laid position cs ls)
include laid

theorem stands {l : Lexeme} (known : l ∈ ls) :
    ∃ front after, cs = front ++ (l.text ++ after) ∧ l.start = position + front.length ∧
      Reads l.text l.token after := by
  induction laid with
  | done => cases known
  | @blank position c rest ls blank more ih =>
    obtain ⟨front, after, rfl, start, reads⟩ := ih known
    exact ⟨c :: front, after, rfl, by simp only [start, List.length_cons]; omega, reads⟩
  | @lexeme position c text after t ls visible reads more ih =>
    rcases List.mem_cons.mp known with rfl | known
    · exact ⟨[], after, rfl, rfl, reads⟩
    · obtain ⟨front, after, rfl, start, reads⟩ := ih known
      refine ⟨c :: text ++ front, after, by simp, ?_, reads⟩
      simp only [start, List.length_append, List.length_cons]
      omega

theorem apart : ls.Pairwise fun a b => a.stop ≤ b.start := by
  induction laid with
  | done => exact .nil
  | blank blank more ih => exact ih
  | lexeme visible reads more ih =>
    refine List.pairwise_cons.mpr ⟨fun l known => ?_, ih⟩
    obtain ⟨front, after, -, start, -⟩ := more.stands known
    simp only [Lexeme.stop, List.length_cons, start]
    omega

theorem isBlank_of_outside {i : Nat} {c : Char} (here : cs[i]? = some c)
    (outside : ∀ l ∈ ls, ¬ (l.start ≤ position + i ∧ position + i < l.stop)) :
    isBlank c = true := by
  induction laid generalizing i with
  | done => cases here
  | @blank position d rest ls blank more ih =>
    cases i with
    | zero =>
      cases here
      exact blank
    | succ i =>
      refine ih here fun l known inside => outside l known ?_
      rwa [show position + 1 + i = position + (i + 1) by omega] at inside
  | @lexeme position d text after t ls visible reads more ih =>
    by_cases within : i < text.length + 1
    · exact absurd (by simp [Lexeme.stop, within]) (outside _ List.mem_cons_self)
    · obtain ⟨j, rfl⟩ : ∃ j, i = text.length + 1 + j := ⟨i - (text.length + 1), by omega⟩
      rw [List.getElem?_append_right (by simp), List.length_cons, Nat.add_sub_cancel_left] at here
      refine ih here fun l known inside => outside l (List.mem_cons_of_mem _ known) ?_
      rwa [Nat.add_assoc] at inside

end Laid

/-- Lexemes that cover a text but for white space. -/
structure Tiling (source : List Char) (lexemes : List Lexeme) : Prop where
  /-- A lexeme is the stretch of the text that begins at its offset. -/
  slice : ∀ l ∈ lexemes, source.extract l.start l.stop = l.text
  reads : ∀ l ∈ lexemes, Reads l.text l.token (source.drop l.stop)
  ascends : lexemes.Pairwise fun a b => a.start < b.start
  apart : lexemes.Pairwise fun a b => a.stop ≤ b.start
  blank : ∀ i c, source[i]? = some c → (∀ l ∈ lexemes, ¬ (l.start ≤ i ∧ i < l.stop)) →
    isBlank c = true

/-- A text with more characters before each of its places and at its end. -/
def widened (more : Nat → List Char) (position : Nat) : List Char → List Char
  | [] => more position
  | c :: cs => more position ++ c :: widened more (position + 1) cs

/-- How many characters have been put in before an offset. -/
def room (more : Nat → List Char) (position : Nat) : Nat :=
  ((List.range position).map fun i => (more i).length).sum

/-- A lexeme in the text with more characters. -/
def Lexeme.moved (more : Nat → List Char) (l : Lexeme) : Lexeme :=
  { l with start := l.start + room more (l.start + 1) }

/-- White space to be put in, none of it inside a lexeme. -/
structure Between (lexemes : List Lexeme) (more : Nat → List Char) : Prop where
  blank : ∀ i, ∀ c ∈ more i, isBlank c = true
  outside : ∀ l ∈ lexemes, ∀ i, l.start < i → i < l.stop → more i = []

theorem Laid.tiling {source : List Char} {lexemes : List Lexeme} (laid : Laid 0 source lexemes) :
    Tiling source lexemes := by
  have stands {l : Lexeme} (known : l ∈ lexemes) : source.extract l.start l.stop = l.text ∧
      Reads l.text l.token (source.drop l.stop) := by
    obtain ⟨front, after, rfl, start, reads⟩ := laid.stands known
    rw [Nat.zero_add] at start
    constructor
    · rw [List.extract_eq_take_drop, Lexeme.stop, start, List.drop_left, Nat.add_sub_cancel_left,
        List.take_left]
    · rwa [Lexeme.stop, start, ← List.drop_drop, List.drop_left, List.drop_left]
  refine ⟨fun l known => (stands known).1, fun l known => (stands known).2, ?_, laid.apart,
    fun i c here outside => ?_⟩
  · refine laid.apart.imp_of_mem fun {a b} known _ order => ?_
    have some := List.length_pos_of_ne_nil (stands known).2.ne_nil
    rw [Lexeme.stop] at order
    omega
  · exact laid.isBlank_of_outside here (by simpa using outside)

section Widened
variable {more : Nat → List Char}

theorem room_succ (position : Nat) :
    room more (position + 1) = room more position + (more position).length := by
  simp [room, List.range_succ]

theorem Laid.behind_blanks {bs : List Char} (blank : ∀ c ∈ bs, isBlank c = true) {position : Nat}
    {cs : List Char} {ls : List Lexeme} (laid : Laid (position + bs.length) cs ls) :
    Laid position (bs ++ cs) ls := by
  induction bs generalizing position with
  | nil => exact laid
  | cons b bs ih =>
    refine .blank (blank b List.mem_cons_self)
      (ih (fun c known => blank c (List.mem_cons_of_mem _ known)) ?_)
    rwa [List.length_cons, Nat.add_comm bs.length, ← Nat.add_assoc] at laid

/-- A stretch that nothing is put into stays together. -/
theorem widened_append {position : Nat} {text : List Char}
    (whole : ∀ i, position ≤ i → i < position + text.length → more i = []) (after : List Char) :
    widened more position (text ++ after) =
      text ++ widened more (position + text.length) after := by
  induction text generalizing position with
  | nil => rfl
  | cons c text ih =>
    have rest : widened more (position + 1) (text ++ after) =
        text ++ widened more (position + 1 + text.length) after :=
      ih fun i low high => whole i (by omega) (by simp only [List.length_cons]; omega)
    rw [List.cons_append, widened, whole position (Nat.le_refl _) (by simp), rest,
      List.length_cons, Nat.add_assoc, Nat.add_comm 1]
    rfl

theorem room_stretch {position length : Nat}
    (whole : ∀ i, position ≤ i → i < position + length → more i = []) :
    room more (position + length) = room more position := by
  induction length with
  | zero => rfl
  | succ length ih =>
    rw [← Nat.add_assoc, room_succ, whole _ (by omega) (by omega),
      ih fun i low high => whole i low (by omega)]
    rfl

theorem ends_widened (blank : ∀ i, ∀ c ∈ more i, isBlank c = true) (position : Nat)
    (after : List Char) : Ends after (widened more position after) := by
  cases first : more position with
  | nil =>
    left
    cases after <;> simp [widened, first]
  | cons b bs =>
    right
    refine ⟨b, ?_, blank position b (by simp [first])⟩
    cases after <;> simp [widened, first]

theorem Laid.widened {position : Nat} {cs : List Char} {ls : List Lexeme}
    (laid : Laid position cs ls) (between : Between ls more) :
    Laid (position + room more position) (widened more position cs) (ls.map (·.moved more)) := by
  have white := between.blank
  have behind {cs : List Char} {ls : List Lexeme} {position : Nat}
      (laid : Laid (position + room more (position + 1)) cs ls) :
      Laid (position + room more position) (more position ++ cs) ls := by
    rw [room_succ, ← Nat.add_assoc] at laid
    exact laid.behind_blanks (white position)
  induction laid with
  | @done position =>
    rw [Formula.widened, ← List.append_nil (more position)]
    exact behind .done
  | @blank position c rest ls blank later ih =>
    refine behind (.blank blank ?_)
    have rest := ih between
    rwa [Nat.add_right_comm] at rest
  | @lexeme position c text after t ls visible reads later ih =>
    have inside := between.outside _ List.mem_cons_self
    have whole : ∀ i, position + 1 ≤ i → i < position + 1 + text.length → more i = [] :=
      fun i low high => inside i low (by simp only [Lexeme.stop, List.length_cons]; omega)
    have place : position + (text.length + 1) = position + 1 + text.length := by omega
    have rest := ih ⟨white, fun l known => between.outside l (List.mem_cons_of_mem _ known)⟩
    rw [place, room_stretch whole] at rest
    rw [List.cons_append, Formula.widened, widened_append whole]
    refine behind (.lexeme visible (reads.follow (ends_widened white _ after)) ?_)
    rwa [show position + room more (position + 1) + (text.length + 1) =
      position + 1 + text.length + room more (position + 1) by omega]

end Widened

theorem Lexeme.readToken_error {position : Nat} {c : Char} {rest : List Char} {e : Error}
    (failed : readToken position c rest = .error e) :
    e = .unexpectedChar c position ∨ ∃ text, e = .invalidReference text := by
  unfold readToken at failed
  split at failed
  · dsimp only at failed
    split at failed <;> cases failed
    exact .inl rfl
  · split at failed
    · split at failed
      · cases failed
        exact .inr ⟨_, rfl⟩
      · split at failed <;> cases failed
        exact .inr ⟨_, rfl⟩
    · split at failed
      · cases failed
      · split at failed <;> cases failed
        exact .inl rfl

/-- A scan fails at a character that stands at the offset told, or in a reference. -/
theorem Lexeme.scanFrom_error {position : Nat} {cs : List Char} {e : Error}
    (failed : scanFrom position cs = .error e) :
    (∃ i c, cs[i]? = some c ∧ e = .unexpectedChar c (position + i)) ∨
      ∃ text, e = .invalidReference text := by
  fun_induction scanFrom position cs with
  | case1 => cases failed
  | case2 position c rest blank ih =>
    refine (ih failed).imp_left ?_
    rintro ⟨i, d, here, told⟩
    refine ⟨i + 1, d, here, ?_⟩
    rw [told, Nat.add_assoc, Nat.add_comm 1]
  | case3 position c rest visible e' read =>
    cases failed
    exact (readToken_error read).imp_left fun told => ⟨0, c, rfl, told⟩
  | case4 position c rest visible t n read e' scanned ih =>
    cases failed
    obtain ⟨text, after, rfl, rfl, reads⟩ := readToken_sound read
    rw [Nat.add_sub_cancel, List.drop_left] at ih scanned
    refine (ih scanned).imp_left ?_
    rintro ⟨i, d, here, told⟩
    refine ⟨text.length + 1 + i, d, ?_, ?_⟩
    · rw [← List.cons_append, List.getElem?_append_right (by simp), List.length_cons,
        Nat.add_sub_cancel_left]
      exact here
    · rw [told, show position + 1 + text.length + i = position + (text.length + 1 + i) by omega]
  | case5 => cases failed

theorem parse_blames {source text : String} {position : Nat}
    (failed : parse source = .error (.unexpectedToken text position)) :
    ∃ lexemes, scan source = .ok lexemes ∧
      ∃ l ∈ lexemes, l.start = position ∧ l.token.describe = text := by
  unfold parse at failed
  split at failed
  · rename_i e scanned
    cases failed
    rcases Lexeme.scanFrom_error scanned with ⟨i, c, -, told⟩ | ⟨text, told⟩ <;> cases told
  · cases failed
  · rename_i t ts scanned
    have within := Parser.level_within .or (t :: ts)
    refine ⟨t :: ts, scanned, ?_⟩
    split at failed
    · rename_i e stopped
      cases failed
      exact within.blames stopped text position rfl
    · cases failed
    · rename_i e extra rest shorter read
      have left := within.left read
      exact Parser.blames_unexpected (left.subset List.mem_cons_self) text position
        (Except.error.inj failed)

/-- The lexemes of a formula tile its text, and with more white space between them they are the same
but for their offsets. A character that starts no token stands at the offset that is told, and a
token that does not fit is one of the lexemes. -/
theorem scan_tiles (source : String) :
    (∀ lexemes, scan source = .ok lexemes →
      Tiling source.toList lexemes ∧
      ∀ more, Between lexemes more →
        scan (String.ofList (widened more 0 source.toList)) = .ok (lexemes.map (·.moved more))) ∧
    (∀ c position, scan source = .error (.unexpectedChar c position) →
      source.toList[position]? = some c) ∧
    ∀ text position, parse source = .error (.unexpectedToken text position) →
      ∃ lexemes, scan source = .ok lexemes ∧
        ∃ l ∈ lexemes, l.start = position ∧ l.token.describe = text := by
  refine ⟨fun lexemes scanned => ?_, fun c position failed => ?_, fun text position failed => ?_⟩
  · have laid := Lexeme.laid_of_scanFrom scanned
    refine ⟨laid.tiling, fun more between => ?_⟩
    have moved := laid.widened between
    rw [scan, String.toList_ofList]
    exact Lexeme.scanFrom_of_laid moved
  · obtain ⟨i, d, here, told⟩ | ⟨text, told⟩ := Lexeme.scanFrom_error failed
    · cases told
      rwa [Nat.zero_add]
    · cases told
  · exact parse_blames failed

example : (scan " 3<=[Input:Net#1]").toOption.map (·.map fun l => (l.start, String.ofList l.text)) =
    some [(1, "3"), (2, "<="), (4, "[Input:Net#1]")] := by
  decide +kernel

end Formula
end Docket
