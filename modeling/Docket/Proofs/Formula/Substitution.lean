import Docket.Formula.Trace
import Docket.Proofs.Formula.Scanning
import Docket.Proofs.Number.Plain

/-! A formula text with its placeholders replaced by values scans to the tokens of the formula with
each reference replaced by the tokens of its value. The replacement must not run into its
neighbours: no two tokens of a formula stand next to each other that digits could join. -/
namespace Docket.Formula

namespace Lexeme

theorem numberText_digits {ds : List Char} (digits : ∀ c ∈ ds, Reading.isDigit c = true)
    (pointed : Bool) (rest : List Char) :
    numberText pointed (ds ++ rest) = ds ++ numberText pointed rest := by
  induction ds with
  | nil => rfl
  | cons c ds ih =>
    rw [List.cons_append, numberText, if_pos (digits c List.mem_cons_self),
      ih fun d known => digits d (List.mem_cons_of_mem _ known), List.cons_append]

theorem numberText_stops {after : List Char} (stops : ∀ c ∈ after.head?, ¬ StartsNumber c)
    (pointed : Bool) : numberText pointed after = [] := by
  cases after with
  | nil => rfl
  | cons c rest =>
    have other := stops c rfl
    rw [numberText, if_neg fun digit => other (Or.inl digit),
      if_neg fun point => other (Or.inr point.1)]

theorem numberText_decimal {text after : List Char} (decimal : Decimal text)
    (stops : ∀ c ∈ after.head?, ¬ StartsNumber c) : numberText false (text ++ after) = text := by
  cases decimal with
  | whole ds nonempty digits =>
    rw [numberText_digits digits, numberText_stops stops, List.append_nil]
  | pointed ds fs nonempty digits fraction =>
    have point : Reading.isDigit '.' = false := rfl
    rw [List.append_assoc, numberText_digits digits, List.cons_append, numberText, point,
      if_neg Bool.false_ne_true, if_pos ⟨rfl, rfl⟩, numberText_digits fraction,
      numberText_stops stops, List.append_nil]

theorem mem_numberText {pointed : Bool} {cs : List Char} {c : Char}
    (known : c ∈ numberText pointed cs) : StartsNumber c := by
  induction cs generalizing pointed with
  | nil => cases known
  | cons d rest ih =>
    unfold numberText at known
    split at known
    · rename_i digit
      rcases List.mem_cons.mp known with rfl | known
      · exact Or.inl digit
      · exact ih known
    · split at known
      · rename_i point
        rcases List.mem_cons.mp known with rfl | known
        · exact Or.inr point.1
        · exact ih known
      · cases known

/-- Only the next character matters to where a number ends. -/
theorem numberText_follow {text after after' : List Char}
    (ends : after'.head? = after.head? ∨ ∀ c ∈ after'.head?, ¬ StartsNumber c)
    {pointed : Bool} (whole : numberText pointed (text ++ after) = text) :
    numberText pointed (text ++ after') = text := by
  induction text generalizing pointed with
  | nil =>
    rcases ends with same | stops
    · cases after' with
      | nil => rfl
      | cons d rest' =>
        obtain ⟨rest, rfl⟩ := List.head?_eq_some_iff.mp same.symm
        rw [List.nil_append, numberText] at whole ⊢
        split at whole
        · cases whole
        · rename_i other
          split at whole
          · cases whole
          · rename_i point
            rw [if_neg other, if_neg point]
    · exact numberText_stops stops pointed
  | cons c text ih =>
    rw [List.cons_append, numberText] at whole ⊢
    split at whole
    · rename_i digit
      rw [if_pos digit, ih (List.cons.inj whole).2]
    · rename_i other
      split at whole
      · rename_i point
        rw [if_neg other, if_pos point, ih (List.cons.inj whole).2]
      · cases whole

end Lexeme

/-- Only a reference is read off a text with an opening bracket. -/
theorem Reads.plain {text after : List Char} {t : Token} (reads : Reads text t after)
    (other : ∀ r, t ≠ .reference r) : '[' ∉ text := by
  cases reads with
  | number starts whole value =>
    rw [← whole]
    exact fun known => absurd (Lexeme.mem_numberText known) (by decide)
  | reference closed read => exact absurd rfl (other _)
  | ident apart opening starts whole =>
    rw [← whole]
    intro known
    rcases List.mem_cons.mp known with same | known
    · exact opening same.symm
    · exact absurd (List.mem_takeWhile_imp known) (by decide)
  | @operator c tail after t apart opening starts found =>
    intro known
    rcases List.mem_cons.mp known with same | known
    · exact opening same.symm
    · cases tail with
      | nil => cases known
      | cons d tail =>
        rcases Lexeme.operator?_length found with one | ⟨two, e, next, plain⟩
        · cases one
        · cases next
          obtain rfl := List.eq_nil_of_length_eq_zero (Nat.succ.inj (Nat.succ.inj two))
          exact plain (List.mem_singleton.mp known).symm

theorem visible_of_startsNumber {c : Char} (starts : StartsNumber c) : Text.isBlank c = false := by
  rcases starts with digit | rfl
  · simp only [Reading.isDigit, Bool.and_eq_true, decide_eq_true_eq, Char.le_def,
      UInt32.le_iff_toNat_le] at digit
    have low : 48 ≤ c.toNat := digit.1
    have high : c.toNat ≤ 57 := digit.2
    simp only [Text.isBlank, Bool.or_eq_false_iff, Bool.and_eq_false_iff, beq_eq_false_iff_ne,
      decide_eq_false_iff_not]
    omega
  · rfl

theorem Scans.number {text after : List Char} {x : Float} {ts : List Token}
    (decimal : Decimal text) (value : Reading.magnitude? text = some x)
    (stops : ∀ c ∈ after.head?, ¬ StartsNumber c) (more : Scans after ts) :
    Scans (text ++ after) (.number x :: ts) := by
  obtain ⟨c, rest, rfl, digit⟩ := decimal.starts
  exact .token (visible_of_startsNumber (Or.inl digit))
    (.number (Or.inl digit) (Lexeme.numberText_decimal decimal stops) value) more

/-- The digits of a number read back as its magnitude. -/
def ReadsBack (x : Float) : Prop :=
  Reading.magnitude? ((FloatFormat.plain.write x).toList.dropWhile (· == '-')) = some x.abs

def operandTokens (x : Float) : List Token :=
  match Double.sign (Double.bitsOf x) with
  | .positive => [.number x]
  | .negative => [.leftParen, .minus, .number x.abs, .rightParen]

/-- A finite value is written as its digits, behind a minus sign in parentheses if its sign bit is
set. -/
theorem operand_eq {x : Float} (finite : x.isFinite = true) (back : ReadsBack x) :
    ∃ text, Decimal text ∧ Reading.magnitude? text = some x.abs ∧
      (Double.sign (Double.bitsOf x) = .positive ∧ Piece.operand x = text ∨
        Double.sign (Double.bitsOf x) = .negative ∧
          Piece.operand x = '(' :: '-' :: (text ++ [')'])) := by
  obtain ⟨text, decimal, written⟩ := FloatFormat.write_plain finite
  obtain ⟨c, rest, starts, digit⟩ := decimal.starts
  have other : c ≠ '-' := by
    rintro rfl
    cases digit
  have digits : text.dropWhile (· == '-') = text := by
    rw [starts, List.dropWhile_cons_of_neg (by simpa using other)]
  have first : text.head? ≠ some '-' := by
    rw [starts]
    simpa using other
  unfold ReadsBack at back
  unfold Piece.operand
  refine ⟨text, decimal, ?_⟩
  rcases written with ⟨sign, written⟩ | ⟨sign, written⟩
  · rw [written, digits] at back
    simp only [written, if_neg first]
    exact ⟨back, Or.inl ⟨sign, trivial⟩⟩
  · rw [written, List.dropWhile_cons_of_pos rfl, digits] at back
    simp only [written]
    exact ⟨back, Or.inr ⟨sign, rfl⟩⟩

/-- A character that is an operator by itself. -/
structure Mark (c : Char) (t : Token) : Prop where
  visible : Text.isBlank c = false
  apart : ¬ StartsNumber c
  opening : c ≠ '['
  starts : Lexeme.isIdentStart c = false
  found : ∀ next, Lexeme.operator? c next = some (t, 1)

theorem Mark.scans {c : Char} {t : Token} (mark : Mark c t) {after : List Char} {ts : List Token}
    (more : Scans after ts) : Scans (c :: after) (t :: ts) :=
  @Scans.token c [] after t ts mark.visible
    (.operator mark.apart mark.opening mark.starts (mark.found _)) more

theorem mark_leftParen : Mark '(' .leftParen :=
  ⟨by decide, by decide, by decide, by decide, fun _ => rfl⟩

theorem mark_rightParen : Mark ')' .rightParen :=
  ⟨by decide, by decide, by decide, by decide, fun _ => rfl⟩

theorem mark_minus : Mark '-' .minus :=
  ⟨by decide, by decide, by decide, by decide, fun _ => rfl⟩

theorem operand_scans {x : Float} {after : List Char} {ts : List Token}
    (finite : x.isFinite = true) (back : ReadsBack x)
    (stops : ∀ c ∈ after.head?, ¬ StartsNumber c) (more : Scans after ts) :
    Scans (Piece.operand x ++ after) (operandTokens x ++ ts) := by
  obtain ⟨text, decimal, value, ⟨sign, written⟩ | ⟨sign, written⟩⟩ := operand_eq finite back
  · rw [Double.abs_of_positive finite sign] at value
    simp only [written, operandTokens, sign]
    exact .number decimal value stops more
  · simp only [written, operandTokens, sign, List.cons_append, List.append_assoc, List.nil_append]
    refine mark_leftParen.scans (mark_minus.scans (.number decimal value ?_
      (mark_rightParen.scans more)))
    intro c closing
    cases closing
    exact mark_rightParen.apart

namespace Piece

theorem ofChars_nil : ofChars [] = [] := by rw [ofChars]

theorem ofChars_cons {c : Char} (plain : c ≠ '[') (rest : List Char) :
    ofChars (c :: rest) = .plain c :: ofChars rest := by
  rw [ofChars, if_neg plain]

theorem isBracket_of_plain {inner : List Char} (opening : '[' ∉ inner) (closed : ']' ∉ inner) :
    ∀ c ∈ inner, (!isBracket c) = true := by
  intro c known
  have left : c ≠ '[' := fun same => opening (same ▸ known)
  have right : c ≠ ']' := fun same => closed (same ▸ known)
  simp [isBracket, left, right]

theorem inner?_eq {inner after : List Char} (nonempty : inner ≠ []) (opening : '[' ∉ inner)
    (closed : ']' ∉ inner) : inner? (inner ++ ']' :: after) = some inner := by
  have plain := isBracket_of_plain opening closed
  have taken : (inner ++ ']' :: after).takeWhile (!isBracket ·) = inner := by
    rw [List.takeWhile_append_of_pos plain, List.takeWhile_cons_of_neg (by decide), List.append_nil]
  have left : (inner ++ ']' :: after).dropWhile (!isBracket ·) = ']' :: after := by
    rw [List.dropWhile_append_of_pos plain, List.dropWhile_cons_of_neg (by decide)]
  obtain ⟨c, rest, rfl⟩ := List.exists_cons_of_ne_nil nonempty
  simp only [inner?, taken, left]

theorem ofChars_placeholder {inner : List Char} (nonempty : inner ≠ []) (opening : '[' ∉ inner)
    (closed : ']' ∉ inner) (after : List Char) :
    ofChars ('[' :: (inner ++ ']' :: after)) = .placeholder inner :: ofChars after := by
  rw [ofChars, if_pos rfl, inner?_eq nonempty opening closed]
  have rest : (inner ++ ']' :: after).drop (inner.length + 1) = after := by simp
  simp only [rest]

end Piece

/-- A text with values in place of its placeholders. -/
def substituted (resolve : Resolver) (cs : List Char) : List Char :=
  (Piece.ofChars cs).flatMap (·.substituted resolve)

section Text
variable {resolve : Resolver}

theorem substituted_nil : substituted resolve [] = [] := by
  rw [substituted, Piece.ofChars_nil]
  rfl

theorem substituted_cons {c : Char} (plain : c ≠ '[') (rest : List Char) :
    substituted resolve (c :: rest) = c :: substituted resolve rest := by
  rw [substituted, Piece.ofChars_cons plain]
  rfl

theorem substituted_append {text : List Char} (plain : '[' ∉ text) (after : List Char) :
    substituted resolve (text ++ after) = text ++ substituted resolve after := by
  induction text with
  | nil => rfl
  | cons c text ih =>
    have other : c ≠ '[' := fun same => plain (same ▸ List.mem_cons_self)
    rw [List.cons_append, substituted_cons other,
      ih fun known => plain (List.mem_cons_of_mem _ known), List.cons_append]

theorem substituted_reference {inner : List Char} {r : Reference}
    (read : Reference.read? inner = some r) (opening : '[' ∉ inner) (closed : ']' ∉ inner)
    (after : List Char) :
    substituted resolve ('[' :: (inner ++ [']']) ++ after) =
      Piece.operand ((resolve r).getD 0.0) ++ substituted resolve after := by
  have nonempty : inner ≠ [] := by
    rintro rfl
    cases read
  rw [List.cons_append, List.append_assoc, List.singleton_append, substituted,
    Piece.ofChars_placeholder nonempty opening closed, List.flatMap_cons]
  simp only [Piece.substituted, Piece.reference?, read]
  rfl

end Text

/-- No placeholder that is opened holds another opening bracket. -/
def Unnested : List Char → Prop
  | [] => True
  | c :: rest => (c = '[' → '[' ∉ rest.takeWhile (· != ']')) ∧ Unnested rest

theorem Unnested.of_append {text after : List Char} (unnested : Unnested (text ++ after)) :
    Unnested after := by
  induction text with
  | nil => exact unnested
  | cons c text ih => exact ih unnested.2

theorem Unnested.inner {inner after : List Char}
    (unnested : Unnested ('[' :: (inner ++ [']']) ++ after)) (closed : ']' ∉ inner) :
    '[' ∉ inner := by
  have first : '[' ∉ (inner ++ [']'] ++ after).takeWhile (· != ']') := unnested.1 rfl
  have plain : ∀ c ∈ inner, (c != ']') = true := fun c known =>
    bne_iff_ne.mpr fun same => closed (same ▸ known)
  rw [List.append_assoc, List.takeWhile_append_of_pos plain] at first
  exact fun known => first (List.mem_append_left _ known)

/-- Numbers, references and names: the tokens that digits could join. -/
def Token.isWord : Token → Bool
  | .number _ | .reference _ | .ident _ => true
  | _ => false

def Apart (t u : Token) : Prop := (t.isWord && u.isWord) = false

/-- Words start with a letter or like a number or a reference, so these start words only. -/
theorem Scans.head_word {c : Char} {rest : List Char} {ts : List Token}
    (scans : Scans (c :: rest) ts) (starts : c = '[' ∨ StartsNumber c) :
    ∃ t us, ts = t :: us ∧ t.isWord = true := by
  cases scans with
  | blank blank more =>
    have visible : Text.isBlank c = false := by
      rcases starts with rfl | starts
      · rfl
      · exact visible_of_startsNumber starts
    rw [visible] at blank
    cases blank
  | token visible reads more =>
    refine ⟨_, _, rfl, ?_⟩
    cases reads with
    | number | reference | ident => rfl
    | operator apart opening =>
      rcases starts with starts | starts
      · exact absurd starts opening
      · exact absurd starts apart

theorem Scans.head_apart {cs : List Char} {t : Token} {ts : List Token} (scans : Scans cs ts)
    (word : t.isWord = true) (apart : (t :: ts).IsChain Apart) :
    ∀ c ∈ cs.head?, c ≠ '[' ∧ ¬ StartsNumber c := by
  intro c head
  obtain ⟨rest, rfl⟩ := List.head?_eq_some_iff.mp head
  rw [← not_or]
  intro starts
  obtain ⟨u, us, rfl, other⟩ := scans.head_word starts
  have both : (t.isWord && u.isWord) = false := (List.isChain_cons_cons.mp apart).1
  rw [word, other] at both
  cases both

theorem substituted_head {resolve : Resolver} {cs : List Char} (plain : ∀ c ∈ cs.head?, c ≠ '[') :
    (substituted resolve cs).head? = cs.head? := by
  cases cs with
  | nil => rw [substituted_nil]
  | cons c rest => rw [substituted_cons (plain c rfl), List.head?_cons, List.head?_cons]

structure Faithful (x : Float) : Prop where
  finite : x.isFinite = true
  back : ReadsBack x

theorem operand_head {x : Float} (faithful : Faithful x) (after : List Char) :
    ∃ c, (Piece.operand x ++ after).head? = some c ∧ (Reading.isDigit c = true ∨ c = '(') := by
  obtain ⟨text, decimal, _, ⟨_, written⟩ | ⟨_, written⟩⟩ :=
    operand_eq faithful.finite faithful.back
  · obtain ⟨c, rest, starts, digit⟩ := decimal.starts
    exact ⟨c, by rw [written, starts]; rfl, Or.inl digit⟩
  · exact ⟨'(', by rw [written]; rfl, Or.inr rfl⟩

theorem operator?_unpaired (c : Char) {d : Char} (plain : d ∉ ['=', '>', '&', '|']) :
    Lexeme.operator? c (some d) = Lexeme.operator? c none := by
  unfold Lexeme.operator?
  split <;> first | rfl | simp_all

def Token.replaced (resolve : Resolver) : Token → List Token
  | .reference r => operandTokens ((resolve r).getD 0.0)
  | t => [t]

theorem replaced_of_mark (resolve : Resolver) {t : Token} (mark : t.isWord = false) :
    t.replaced resolve = [t] := by
  cases t <;> first | rfl | cases mark

theorem operator?_mark {c : Char} {next : Option Char} {t : Token} {n : Nat}
    (found : Lexeme.operator? c next = some (t, n)) : t.isWord = false := by
  unfold Lexeme.operator? at found
  split at found <;> cases found <;> rfl

theorem Scans.head_replaced {resolve : Resolver} {cs : List Char} {ts : List Token}
    (scans : Scans cs ts) (opening : cs.head? = some '[') (unnested : Unnested cs)
    (faithful : ∀ r, .reference r ∈ ts → Faithful ((resolve r).getD 0.0)) :
    ∃ c, (substituted resolve cs).head? = some c ∧ (Reading.isDigit c = true ∨ c = '(') := by
  cases scans with
  | done => cases opening
  | blank blank more =>
    cases opening
    cases blank
  | token visible reads more =>
    cases opening
    cases reads with
    | number starts => exact absurd starts (by decide)
    | ident apart opening => exact absurd rfl opening
    | operator apart opening => exact absurd rfl opening
    | reference closed read =>
      rw [substituted_reference read (unnested.inner closed) closed]
      exact operand_head (faithful _ List.mem_cons_self) _

theorem takeWhile_follow {p : Char → Bool} {text after after' : List Char}
    (ends : after'.head? = after.head? ∨ ∀ c ∈ after'.head?, p c = false)
    (whole : (text ++ after).takeWhile p = text) : (text ++ after').takeWhile p = text := by
  have all : ∀ c ∈ text, p c = true := by
    rw [← whole]
    exact fun c known => List.mem_takeWhile_imp known
  rw [List.takeWhile_append_of_pos all, List.append_right_eq_self] at whole ⊢
  cases after' with
  | nil => rfl
  | cons d rest' =>
    rcases ends with same | stops
    · obtain ⟨rest, rfl⟩ := List.head?_eq_some_iff.mp same.symm
      rw [List.takeWhile_cons] at whole ⊢
      split at whole
      · cases whole
      · rename_i stops
        rw [if_neg stops]
    · rw [List.takeWhile_cons, stops d rfl, if_neg Bool.false_ne_true]

theorem operator?_replaced {resolve : Resolver} {c : Char} {after : List Char} {t : Token}
    {ts : List Token} (found : Lexeme.operator? c after.head? = some (t, 1))
    (scans : Scans after ts) (unnested : Unnested after)
    (faithful : ∀ r, .reference r ∈ ts → Faithful ((resolve r).getD 0.0)) :
    Lexeme.operator? c (substituted resolve after).head? = some (t, 1) := by
  by_cases opening : after.head? = some '['
  · obtain ⟨d, head, starts⟩ := scans.head_replaced opening unnested faithful
    have plain : d ∉ ['=', '>', '&', '|'] := by
      intro known
      simp only [List.mem_cons, List.not_mem_nil, or_false] at known
      rcases starts with digit | rfl
      · rcases known with rfl | rfl | rfl | rfl <;> cases digit
      · revert known
        decide
    rw [opening, operator?_unpaired c (by decide)] at found
    rw [head, operator?_unpaired c plain, found]
  · rw [substituted_head, found]
    rintro d head rfl
    exact opening head

/-- The scan of a substituted text. -/
theorem Scans.replaced {resolve : Resolver} {cs : List Char} {ts : List Token}
    (scans : Scans cs ts) (unnested : Unnested cs) (apart : ts.IsChain Apart)
    (faithful : ∀ r, .reference r ∈ ts → Faithful ((resolve r).getD 0.0)) :
    Scans (substituted resolve cs) (ts.flatMap (·.replaced resolve)) := by
  induction scans with
  | done =>
    rw [substituted_nil]
    exact .done
  | @blank c rest ts blank more ih =>
    have plain : c ≠ '[' := by
      rintro rfl
      cases blank
    rw [substituted_cons plain]
    exact .blank blank (ih unnested.2 apart faithful)
  | @token c text after t ts visible reads more ih =>
    have behind (r) (known : Token.reference r ∈ ts) := faithful r (List.mem_cons_of_mem _ known)
    have later := ih unnested.of_append apart.tail behind
    have plain := reads.plain
    rw [List.flatMap_cons]
    cases reads with
    | reference closed read =>
      rename_i inner r
      have clear := more.head_apart rfl apart
      rw [substituted_reference read (unnested.inner closed) closed]
      have value := faithful r List.mem_cons_self
      refine operand_scans value.finite value.back ?_ later
      rw [substituted_head fun c head => (clear c head).1]
      exact fun c head => (clear c head).2
    | number starts whole value =>
      -- What follows a word is not replaced at its start, so the word ends where it did.
      have clear := more.head_apart rfl apart
      rw [substituted_append (plain nofun)]
      refine .token visible (.number starts ?_ value) later
      refine Lexeme.numberText_follow (.inl ?_) whole
      rw [substituted_head fun c head => (clear c head).1]
    | ident other opening starts whole =>
      have clear := more.head_apart rfl apart
      rw [substituted_append (plain nofun)]
      refine .token visible (.ident other opening starts ?_) later
      refine takeWhile_follow (.inl ?_) whole
      rw [substituted_head fun c head => (clear c head).1]
    | operator other opening starts found =>
      -- No word, so this may be what stands before a placeholder.
      rw [replaced_of_mark resolve (operator?_mark found)]
      cases text with
      | nil =>
        have same := operator?_replaced found more unnested.2 behind
        rw [List.singleton_append, substituted_cons opening]
        exact @Scans.token c [] _ t _ visible (.operator other opening starts same) later
      | cons d tail =>
        have marked (r : Reference) : t ≠ .reference r := by
          rintro rfl
          cases operator?_mark found
        rw [substituted_append (plain marked)]
        exact .token visible (.operator other opening starts found) later

end Docket.Formula
