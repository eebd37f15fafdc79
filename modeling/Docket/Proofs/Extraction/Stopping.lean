import Mathlib
import Docket.Extraction.Numeral
import Docket.Proofs.Extraction.Separators
import Docket.Proofs.Number.Places
import Docket.Proofs.Text.Digits

/-! Where the number that is read from a text ends. Of the readings at a place the first takes all groups
there are, and a fraction only if a mark for one follows. So it stops before a digit exactly where
more than three digits follow a mark behind one to three digits or behind a group, and a fraction of
more than three places loses the others if its whole part is that short. -/
namespace Docket
open Reading (Digits natural natural_append number takeWhile_stretch)
open Text (isDecimalDigit_of_isDigit)

namespace Numeral

theorem mark_of_isGroupMark {c : Char} (mark : isGroupMark c = true) :
    Text.isDecimalDigit c = false := by
  simp only [isGroupMark, Bool.or_eq_true, beq_iff_eq] at mark
  rcases mark with (((rfl | rfl) | rfl) | rfl) | rfl <;> decide

theorem mark_of_isFractionMark {c : Char} (mark : isFractionMark c = true) :
    Text.isDecimalDigit c = false := by
  simp only [isFractionMark, Bool.or_eq_true, beq_iff_eq] at mark
  rcases mark with rfl | rfl <;> decide

theorem takeWhile_dropWhile (cs : List Char) :
    (cs.dropWhile Text.isDecimalDigit).takeWhile Text.isDecimalDigit = [] := by
  induction cs with
  | nil => rfl
  | cons c cs ih =>
    by_cases digit : Text.isDecimalDigit c = true
    · rw [List.dropWhile_cons_of_pos digit]
      exact ih
    · rw [List.dropWhile_cons_of_neg digit]
      exact List.takeWhile_cons_of_neg digit

/-- A group mark with three digits behind it. -/
structure IsGroup (g : List Char) : Prop where
  parts : ∃ mark a b c, g = [mark, a, b, c] ∧
    (isGroupMark mark && [a, b, c].all Text.isDecimalDigit) = true

theorem group?_eq_some_iff {cs g behind : List Char} :
    group? cs = some (g, behind) ↔ IsGroup g ∧ cs = g ++ behind := by
  constructor
  · intro read
    unfold group? at read
    split at read
    · split at read
      · rename_i mark a b c rest group
        cases read
        exact ⟨⟨mark, a, b, c, rfl, group⟩, rfl⟩
      · cases read
    · cases read
  · rintro ⟨⟨mark, a, b, c, rfl, group⟩, rfl⟩
    simp only [List.cons_append, List.nil_append, group?, group, if_true]

theorem group?_of_digit {c : Char} (digit : Text.isDecimalDigit c = true) (cs : List Char) :
    group? (c :: cs) = none := by
  cases read : group? (c :: cs) with
  | none => rfl
  | some found =>
    obtain ⟨⟨mark, x, y, z, same, group⟩, parts⟩ := group?_eq_some_iff.mp read
    rw [same] at parts
    obtain ⟨rfl, -⟩ := List.cons.inj parts
    rw [mark_of_isGroupMark (Bool.and_eq_true_iff.mp group).1] at digit
    cases digit

theorem group?_of_digits {cs : List Char} (digits : ∀ c ∈ cs, Text.isDecimalDigit c = true) :
    group? cs = none := by
  cases cs with
  | nil => rfl
  | cons c cs => exact group?_of_digit (digits c List.mem_cons_self) cs

theorem IsGroup.length {g : List Char} (group : IsGroup g) : g.length = 4 := by
  obtain ⟨mark, a, b, c, rfl, -⟩ := group.parts
  rfl

theorem group?_of_length {cs : List Char} (few : cs.length < 4) : group? cs = none := by
  cases read : group? cs with
  | none => rfl
  | some found =>
    obtain ⟨group, parts⟩ := group?_eq_some_iff.mp read
    have four := group.length
    rw [parts, List.length_append] at few
    omega

/-- Any text goes on with some groups, perhaps none, and then with something else. -/
theorem exists_groups (cs : List Char) :
    ∃ (gs : List (List Char)) (behind : List Char),
      (∀ g ∈ gs, IsGroup g) ∧ cs = gs.flatten ++ behind ∧ group? behind = none := by
  cases read : group? cs with
  | none => exact ⟨[], cs, by simp, rfl, read⟩
  | some found =>
    obtain ⟨group, parts⟩ := group?_eq_some_iff.mp read
    have shorter : found.2.length < cs.length := by
      obtain ⟨mark, a, b, c, same, -⟩ := group.parts
      rw [parts, same, List.length_append]
      exact Nat.lt_add_of_pos_left (Nat.succ_pos 3)
    obtain ⟨gs, behind, groups, rest, ends⟩ := exists_groups found.2
    refine ⟨found.1 :: gs, behind, List.forall_mem_cons.mpr ⟨group, groups⟩, ?_, ends⟩
    rw [parts, rest, List.flatten_cons, List.append_assoc]
termination_by cs.length

/-- With its fraction, if there is one. -/
def longest (text rest : List Char) : Reading :=
  (fraction? rest).elim ⟨text, rest⟩ fun f => ⟨text ++ f.1, f.2⟩

theorem head?_withFraction (text rest : List Char) :
    (withFraction text rest).head? = some (longest text rest) := by
  unfold withFraction longest
  cases fraction? rest <;> rfl

theorem fraction?_eq_some {rest f behind : List Char} (read : fraction? rest = some (f, behind)) :
    rest = f ++ behind ∧ behind.takeWhile Text.isDecimalDigit = [] ∧
      ∃ mark ds, f = mark :: ds ∧ isFractionMark mark = true := by
  cases rest with
  | nil => cases read
  | cons mark rest =>
    have parts := List.takeWhile_append_dropWhile (p := Text.isDecimalDigit) (l := rest)
    have dropped : rest.drop (rest.takeWhile Text.isDecimalDigit).length =
        rest.dropWhile Text.isDecimalDigit :=
      calc rest.drop (rest.takeWhile Text.isDecimalDigit).length
          = (rest.takeWhile Text.isDecimalDigit ++ rest.dropWhile Text.isDecimalDigit).drop
              (rest.takeWhile Text.isDecimalDigit).length := by rw [parts]
        _ = rest.dropWhile Text.isDecimalDigit := List.drop_left
    simp only [fraction?, dropped] at read
    split at read
    · rename_i opens
      cases read
      refine ⟨?_, takeWhile_dropWhile rest, mark, _, rfl, (Bool.and_eq_true_iff.mp opens).1⟩
      rw [List.cons_append, parts]
    · cases read

theorem longest_append (text rest : List Char) :
    (longest text rest).text ++ (longest text rest).rest = text ++ rest := by
  unfold longest
  cases read : fraction? rest with
  | none => rfl
  | some found => simp [(fraction?_eq_some read).1]

/-- A fraction takes all its digits, so no digit follows it. -/
theorem longest_head {c : Char} (digit : Text.isDecimalDigit c = true) (text rest : List Char) :
    (longest text rest).rest.head? = some c ↔ rest.head? = some c := by
  unfold longest
  cases read : fraction? rest with
  | none => exact Iff.rfl
  | some found =>
    obtain ⟨parts, ends, mark, ds, first, opens⟩ := fraction?_eq_some read
    constructor
    · intro head
      obtain ⟨behind, starts⟩ := List.head?_eq_some_iff.mp head
      have next : found.2 = c :: behind := starts
      simp [next, digit] at ends
    · intro head
      rw [parts, first] at head
      obtain rfl := Option.some.inj head
      rw [mark_of_isFractionMark opens] at digit
      cases digit

theorem longest_of_digits (text : List Char) {rest : List Char}
    (digits : ∀ c ∈ rest, Text.isDecimalDigit c = true) : longest text rest = ⟨text, rest⟩ := by
  unfold longest
  cases read : fraction? rest with
  | none => rfl
  | some found =>
    obtain ⟨parts, -, mark, ds, first, opens⟩ := fraction?_eq_some read
    have digit := digits mark (by simp [parts, first])
    rw [mark_of_isFractionMark opens] at digit
    cases digit

theorem longest_fraction {text fraction : List Char} (some : fraction ≠ [])
    (digits : ∀ c ∈ fraction, Text.isDecimalDigit c = true) :
    longest text ('.' :: fraction) = ⟨text ++ '.' :: fraction, []⟩ := by
  have all : fraction.takeWhile Text.isDecimalDigit = fraction :=
    List.takeWhile_eq_self_iff.mpr digits
  have point : isFractionMark '.' = true := rfl
  simp [longest, fraction?, all, some, point]

theorem grouped_nil (n : Nat) (text : List Char) {rest : List Char} (none : group? rest = none) :
    grouped n text rest = [] := by
  cases n with
  | zero => rfl
  | succ n => rw [grouped, none]

/-- The first reading with groups takes all there are. -/
theorem head?_grouped {gs : List (List Char)} (any : gs ≠ []) (groups : ∀ g ∈ gs, IsGroup g)
    {behind : List Char} (ends : group? behind = none) (text : List Char) {n : Nat}
    (enough : (gs.flatten ++ behind).length ≤ n) :
    (grouped n text (gs.flatten ++ behind)).head? =
      some (longest (text ++ gs.flatten) behind) := by
  induction gs generalizing text n with
  | nil => exact absurd rfl any
  | cons g gs ih =>
    have group := groups g List.mem_cons_self
    rw [List.flatten_cons, List.append_assoc] at enough ⊢
    have read := group?_eq_some_iff.mpr ⟨group, rfl (a := g ++ (gs.flatten ++ behind))⟩
    have long := group.length
    rw [List.length_append] at enough
    obtain ⟨m, rfl⟩ : ∃ m, n = m + 1 := ⟨n - 1, by omega⟩
    rw [grouped, read]
    dsimp only
    rw [List.head?_append, head?_withFraction]
    by_cases last : gs = []
    · subst gs
      simp [grouped_nil m _ ends]
    · rw [ih last (fun g known => groups g (List.mem_cons_of_mem _ known)) _ (by omega)]
      simp

/-- One to three digits, and then groups. -/
structure Grouped (run : List Char) (gs : List (List Char)) : Prop where
  starts : run ≠ []
  short : run.length ≤ 3
  digits : ∀ c ∈ run, Text.isDecimalDigit c = true
  any : gs ≠ []
  groups : ∀ g ∈ gs, IsGroup g

theorem head?_readings_grouped {run : List Char} {gs : List (List Char)} (known : Grouped run gs)
    {behind : List Char} (ends : group? behind = none) :
    (readings (run ++ (gs.flatten ++ behind))).head? =
      some (longest (run ++ gs.flatten) behind) := by
  have mark : (gs.flatten ++ behind).takeWhile Text.isDecimalDigit = [] := by
    obtain ⟨g, rest, rfl⟩ := List.exists_cons_of_ne_nil known.any
    obtain ⟨mark, a, b, c, rfl, group⟩ := (known.groups g List.mem_cons_self).parts
    have no := mark_of_isGroupMark (Bool.and_eq_true_iff.mp group).1
    simp [no]
  have first := head?_grouped known.any known.groups ends run le_rfl
  simp only [readings, (takeWhile_stretch known.digits mark).1, List.drop_left]
  rw [if_neg (by simpa using known.starts), if_pos known.short, List.head?_append, first,
    Option.some_or]

theorem head?_readings_plain {run rest : List Char} (starts : run ≠ [])
    (digits : ∀ c ∈ run, Text.isDecimalDigit c = true)
    (ends : rest.takeWhile Text.isDecimalDigit = [])
    (ungrouped : run.length ≤ 3 → group? rest = none) :
    (readings (run ++ rest)).head? = some (longest run rest) := by
  simp only [readings, (takeWhile_stretch digits ends).1, List.drop_left]
  rw [if_neg (by simpa using starts), List.head?_append, head?_withFraction]
  split
  · rename_i short
    rw [grouped_nil _ _ (ungrouped short)]
    rfl
  · rfl

/-- What the first reading at a place takes, and where it stops. -/
inductive FirstReading (cs : List Char) (r : Reading) : Prop
  | grouped (run : List Char) (gs : List (List Char)) (behind : List Char) :
      Grouped run gs → group? behind = none → cs = run ++ (gs.flatten ++ behind) →
        r = longest (run ++ gs.flatten) behind → FirstReading cs r
  | plain (run rest : List Char) : rest.takeWhile Text.isDecimalDigit = [] → cs = run ++ rest →
        r = longest run rest → FirstReading cs r

theorem firstReading {cs : List Char} {r : Reading} (first : (readings cs).head? = some r) :
    FirstReading cs r := by
  have parts := List.takeWhile_append_dropWhile (p := Text.isDecimalDigit) (l := cs)
  have digits : ∀ c ∈ cs.takeWhile Text.isDecimalDigit, Text.isDecimalDigit c = true :=
    fun c known => List.mem_takeWhile_imp known
  have ends := takeWhile_dropWhile cs
  generalize cs.takeWhile Text.isDecimalDigit = run at parts digits
  generalize cs.dropWhile Text.isDecimalDigit = rest at parts ends
  subst parts
  by_cases starts : run = []
  · rw [starts, List.nil_append, readings, ends] at first
    cases first
  obtain ⟨gs, behind, groups, rfl, last⟩ := exists_groups rest
  by_cases grouped : run.length ≤ 3 ∧ gs ≠ []
  · have known : Grouped run gs := ⟨starts, grouped.1, digits, grouped.2, groups⟩
    rw [head?_readings_grouped known last] at first
    exact .grouped run gs behind known last rfl (Option.some.inj first).symm
  · have ungrouped (short : run.length ≤ 3) : group? (gs.flatten ++ behind) = none := by
      have none : gs = [] := by
        by_contra some
        exact grouped ⟨short, some⟩
      rw [none]
      exact last
    rw [head?_readings_plain starts digits ends ungrouped] at first
    exact .plain run _ ends rfl (Option.some.inj first).symm

theorem FirstReading.append {cs : List Char} {r : Reading} (first : FirstReading cs r) :
    r.text ++ r.rest = cs := by
  cases first with
  | grouped run gs behind _ _ parts same => rw [same, longest_append, parts, List.append_assoc]
  | plain run rest _ parts same => rw [same, longest_append, parts]

/-- The first reading stops before a digit exactly where that stands behind a group. -/
theorem head?_rest_iff {cs : List Char} {r : Reading} (first : (readings cs).head? = some r)
    {c : Char} (digit : Text.isDecimalDigit c = true) : r.rest.head? = some c ↔
      ∃ run gs behind, Grouped run gs ∧ cs = run ++ (gs.flatten ++ c :: behind) := by
  constructor
  · intro head
    cases firstReading first with
    | grouped run gs behind known last parts same =>
      rw [same, longest_head digit] at head
      obtain ⟨rest, rfl⟩ := List.head?_eq_some_iff.mp head
      exact ⟨run, gs, rest, known, parts⟩
    | plain run rest ends parts same =>
      rw [same, longest_head digit] at head
      obtain ⟨behind, rfl⟩ := List.head?_eq_some_iff.mp head
      simp [digit] at ends
  · rintro ⟨run, gs, behind, known, rfl⟩
    rw [head?_readings_grouped known (group?_of_digit digit behind)] at first
    obtain rfl := Option.some.inj first
    exact (longest_head digit _ _).mpr rfl

/-- A parenthesis, if there is one. -/
def skipParen (cs : List Char) : Bool × List Char :=
  match cs with
  | '(' :: rest => (true, rest)
  | _ => (false, cs)

/-- The text at a place behind its parenthesis and its sign. -/
def bodyOf (cs : List Char) : List Char := (skipSign (skipParen cs).2).2

/-- The reading that is taken for the number at a place. -/
def sight? (cs : List Char) : Option Reading := (readings (bodyOf cs)).head?

theorem number?_eq (cs : List Char) : number? cs = (sight? cs).map fun r =>
    ⟨(skipSign (skipParen cs).2).1 || ((skipParen cs).1 && r.rest.head? == some ')'), r.text⟩ := rfl

theorem number?_text (cs : List Char) :
    (number? cs).map Found.text = (sight? cs).map Reading.text := by
  rw [number?_eq, Option.map_map]
  rfl

theorem first?_map {α β γ : Type} {f : List Char → Option α} {g : List Char → Option β} {a : α → γ}
    {b : β → γ} (same : ∀ cs, (f cs).map a = (g cs).map b) (cs : List Char) :
    (first? f cs).map a = (first? g cs).map b := by
  induction cs with
  | nil => exact same []
  | cons c cs ih => rw [first?, first?, Option.map_or, Option.map_or, same, ih]

theorem first?_eq_some {α : Type} {f : List Char → Option α} {cs : List Char} {a : α}
    (found : first? f cs = some a) : ∃ skipped rest, cs = skipped ++ rest ∧ f rest = some a := by
  induction cs with
  | nil => exact ⟨[], [], rfl, found⟩
  | cons c cs ih =>
    rw [first?, Option.or_eq_some_iff] at found
    rcases found with here | ⟨-, later⟩
    · exact ⟨[], c :: cs, rfl, here⟩
    · obtain ⟨skipped, rest, rfl, known⟩ := ih later
      exact ⟨c :: skipped, rest, rfl, known⟩

theorem skipParen_suffix (cs : List Char) : (skipParen cs).2 <:+ cs := by
  unfold skipParen
  split
  · exact List.suffix_cons _ _
  · exact List.suffix_refl _

theorem skipSign_suffix (cs : List Char) : (skipSign cs).2 <:+ cs := by
  unfold skipSign
  split
  · split
    · exact (List.dropWhile_suffix _).trans (List.suffix_cons _ _)
    · exact List.suffix_refl _
  · exact List.suffix_refl _

/-- Where a reading stands in a text, and when a digit follows it. -/
structure Stops (text : List Char) (r : Reading) : Prop where
  place : ∃ skipped, text = skipped ++ (r.text ++ r.rest)
  digit (c : Char) : Text.isDecimalDigit c = true → (r.rest.head? = some c ↔
    ∃ run gs behind, Grouped run gs ∧ r.text ++ r.rest = run ++ (gs.flatten ++ c :: behind))

theorem stops {text : List Char} {r : Reading} (found : first? sight? text = some r) :
    Stops text r := by
  obtain ⟨skipped, rest, rfl, sight⟩ := first?_eq_some found
  have parts := (firstReading sight).append
  obtain ⟨before, whole⟩ := (skipSign_suffix _).trans (skipParen_suffix rest)
  constructor
  · refine ⟨skipped ++ before, ?_⟩
    rw [parts, List.append_assoc]
    exact congrArg _ whole.symm
  · intro c digit
    rw [parts]
    exact head?_rest_iff sight digit

theorem number?_of_digit {c : Char} (digit : Reading.isDigit c = true) (rest : List Char) :
    number? (c :: rest) = (readings (c :: rest)).head?.map fun r => ⟨false, r.text⟩ := by
  have paren : skipParen (c :: rest) = (false, c :: rest) := by
    unfold skipParen
    split
    · rename_i same
      obtain ⟨rfl, -⟩ := List.cons.inj same
      cases digit
    · rfl
  have sign : isMinus c = false := by
    rw [Bool.eq_false_iff]
    intro minus
    simp only [isMinus, Bool.or_eq_true, beq_iff_eq] at minus
    rcases minus with rfl | rfl <;> cases digit
  rw [number?_eq, sight?, bodyOf, paren]
  simp only [skipSign, sign, Bool.false_eq_true, if_false, Bool.false_or, Bool.false_and]

/-- Digits around a point that a decimal holds as they are written. -/
structure Pointed (whole fraction : List Char) : Prop where
  digits : Digits whole
  behind : Digits fraction
  starts : whole ≠ []
  ends : fraction ≠ []
  room : natural (whole ++ fraction) < Decimal96.limit
  places : fraction.length ≤ Decimal96.maxScale

theorem pointed_iff (whole fraction : List Char) : Pointed whole fraction ↔
    whole.all Docket.Reading.isDigit = true ∧ fraction.all Docket.Reading.isDigit = true ∧
      whole ≠ [] ∧ fraction ≠ [] ∧ natural (whole ++ fraction) < Decimal96.limit ∧
        fraction.length ≤ Decimal96.maxScale := by
  rw [List.all_eq_true, List.all_eq_true]
  constructor
  · rintro ⟨digits, behind, starts, ends, room, places⟩
    exact ⟨digits, behind, starts, ends, room, places⟩
  · rintro ⟨digits, behind, starts, ends, room, places⟩
    exact ⟨digits, behind, starts, ends, room, places⟩

instance (whole fraction : List Char) : Decidable (Pointed whole fraction) :=
  decidable_of_iff _ (pointed_iff whole fraction).symm

/-- The digits of a fraction that are read. -/
def kept (whole fraction : List Char) : List Char :=
  if whole.length ≤ 3 then fraction.take 3 else fraction

section Pointed
variable {whole fraction : List Char}

theorem kept_start (whole fraction : List Char) : kept whole fraction <+: fraction := by
  unfold kept
  split
  · exact List.take_prefix 3 fraction
  · exact List.prefix_refl fraction

theorem Pointed.kept (known : Pointed whole fraction) : Pointed whole (kept whole fraction) where
  digits := known.digits
  behind := fun c among => known.behind c ((kept_start whole fraction).subset among)
  starts := known.starts
  ends := by
    unfold Numeral.kept
    split
    · simpa using known.ends
    · exact known.ends
  room := by
    obtain ⟨rest, parts⟩ := kept_start whole fraction
    have room := known.room
    rw [← parts, ← List.append_assoc, natural_append] at room
    have power : 0 < 10 ^ rest.length := Nat.pow_pos (by decide)
    have less := Nat.le_mul_of_pos_right (natural (whole ++ Numeral.kept whole fraction)) power
    omega
  places := (kept_start whole fraction).length_le.trans known.places

theorem head?_readings_pointed (known : Pointed whole fraction) :
    (readings (whole ++ '.' :: fraction)).head?.map Reading.text =
      some (whole ++ '.' :: kept whole fraction) := by
  have digits : ∀ c ∈ whole, Text.isDecimalDigit c = true :=
    fun c among => isDecimalDigit_of_isDigit (known.digits c among)
  have behind : ∀ c ∈ fraction, Text.isDecimalDigit c = true :=
    fun c among => isDecimalDigit_of_isDigit (known.behind c among)
  by_cases grouped : whole.length ≤ 3 ∧ 3 ≤ fraction.length
  · -- the point and three digits behind it are taken for a group
    obtain ⟨a, b, c, three⟩ := List.length_eq_three.mp (List.length_take_of_le grouped.2)
    have group : IsGroup ('.' :: fraction.take 3) := by
      refine ⟨'.', a, b, c, by rw [three], ?_⟩
      rw [← three, Bool.and_eq_true_iff, List.all_eq_true]
      exact ⟨rfl, fun c among => behind c (List.mem_of_mem_take among)⟩
    have rest : ∀ c ∈ fraction.drop 3, Text.isDecimalDigit c = true :=
      fun c among => behind c (List.mem_of_mem_drop among)
    have one : Grouped whole ['.' :: fraction.take 3] :=
      ⟨known.starts, grouped.1, digits, List.cons_ne_nil _ _, by simpa using group⟩
    have parts : '.' :: fraction = ['.' :: fraction.take 3].flatten ++ fraction.drop 3 := by simp
    rw [parts, head?_readings_grouped one (group?_of_digits rest), longest_of_digits _ rest, kept,
      if_pos grouped.1]
    simp
  · have ungrouped (short : whole.length ≤ 3) : group? ('.' :: fraction) = none := by
      apply group?_of_length
      rw [List.length_cons]
      omega
    have all : kept whole fraction = fraction := by
      unfold kept
      split
      · apply List.take_of_length_le
        omega
      · rfl
    rw [head?_readings_plain known.starts digits rfl ungrouped, longest_fraction known.ends behind,
      all]
    rfl

theorem Pointed.value? (known : Pointed whole fraction) : Numeral.value? (whole ++ '.' :: fraction) =
    some ⟨false, natural (whole ++ fraction), fraction.length⟩ := by
  have all : (whole ++ '.' :: fraction).filter isNumeralChar = whole ++ '.' :: fraction := by
    apply filter_isNumeralChar
    intro c among
    rcases List.mem_append.mp among with first | last
    · exact .inl (known.digits c first)
    · rcases List.mem_cons.mp last with rfl | last
      · exact .inr (.inr rfl)
      · exact .inl (known.behind c last)
  rw [Numeral.value?, all, withPoint_point known.digits known.behind]
  exact Decimal96.read?_fits known.starts known.digits known.behind known.room known.places

theorem Pointed.firstNumber? (known : Pointed whole fraction) :
    Numeral.firstNumber? (String.ofList (whole ++ '.' :: fraction)) =
      some (Decimal96.toFloat ⟨false, natural (whole ++ Numeral.kept whole fraction),
        (Numeral.kept whole fraction).length⟩) := by
  obtain ⟨c, rest, parts⟩ := List.exists_cons_of_ne_nil known.starts
  have digit := known.digits c (parts ▸ List.mem_cons_self)
  have read := head?_readings_pointed known
  have found : first? number? (whole ++ '.' :: fraction) =
      some ⟨false, whole ++ '.' :: Numeral.kept whole fraction⟩ := by
    obtain ⟨r, first, text⟩ := Option.map_eq_some_iff.mp read
    rw [parts, List.cons_append] at first ⊢
    rw [first?, number?_of_digit digit, first, Option.map_some, text, parts]
    rfl
  rw [Numeral.firstNumber?, String.toList_ofList, found, Option.bind_some, Found.value?,
    known.kept.value?]
  rfl

/-- Without its last digits a number is the same if these are zeros. -/
theorem value_prefix_iff (whole front : List Char) {back : List Char} (digits : Digits back) :
    Decimal96.value ⟨false, natural (whole ++ front), front.length⟩ =
      number whole (front ++ back) ↔ ∀ c ∈ back, c = '0' := by
  have power : 10 ^ front.length ≠ 0 := (Nat.pow_pos (by decide)).ne'
  rw [number, Decimal96.value_eq_iff, ← Docket.Reading.natural_eq_zero_iff digits,
    ← List.append_assoc, natural_append (whole ++ front), List.length_append, Nat.pow_add]
  constructor
  · intro same
    have more : natural back * 10 ^ front.length = 0 := by
      apply Nat.add_left_cancel (n := natural (whole ++ front) * 10 ^ back.length * 10 ^ front.length)
      linarith
    exact (Nat.mul_eq_zero.mp more).resolve_right power
  · intro zero
    rw [zero]
    ring

theorem Pointed.exact_iff (known : Pointed whole fraction) :
    Decimal96.value ⟨false, natural (whole ++ Numeral.kept whole fraction),
      (Numeral.kept whole fraction).length⟩ = number whole fraction ↔
        3 < whole.length ∨ ∀ c ∈ fraction.drop 3, c = '0' := by
  have rest : Digits (fraction.drop 3) := fun c among => known.behind c (List.mem_of_mem_drop among)
  by_cases short : whole.length ≤ 3
  · have cut := value_prefix_iff whole (fraction.take 3) rest
    rw [List.take_append_drop] at cut
    rw [Numeral.kept, if_pos short, cut]
    constructor
    · exact .inr
    · rintro (long | zeros)
      · omega
      · exact zeros
  · have all := value_prefix_iff whole fraction (List.forall_mem_nil _)
    rw [List.append_nil] at all
    rw [Numeral.kept, if_neg short, all]
    constructor
    · intro _
      left
      omega
    · intro _ c among
      cases among

end Pointed

/-- A number in a text ends before a digit exactly where that stands behind groups. Of a numeral with
a point the third place is the last one that is read if its whole part could have a group behind it;
what it is read as is the number written if the others are zeros. -/
theorem firstNumber_stops (text whole fraction : List Char) :
    ((first? number? text).map Found.text = (first? sight? text).map Reading.text ∧
      ∀ r, first? sight? text = some r → Stops text r) ∧
    (Pointed whole fraction →
      firstNumber? (String.ofList (whole ++ '.' :: fraction)) =
          some (Decimal96.toFloat ⟨false, natural (whole ++ kept whole fraction),
            (kept whole fraction).length⟩) ∧
        (Decimal96.value ⟨false, natural (whole ++ kept whole fraction),
            (kept whole fraction).length⟩ = number whole fraction ↔
          3 < whole.length ∨ ∀ c ∈ fraction.drop 3, c = '0')) := by
  constructor
  · constructor
    · exact first?_map number?_text text
    · intro r found
      exact stops found
  · intro known
    constructor
    · exact known.firstNumber?
    · exact known.exact_iff

theorem firstNumber_stops_fine : Pointed "1250".toList "7512".toList ∧
    Stops "1250.7512".toList ⟨"1250.7512".toList, []⟩ ∧
      firstNumber? "1250.7512" = some (Decimal96.toFloat ⟨false, 12507512, 4⟩) ∧
        Decimal96.value ⟨false, 12507512, 4⟩ = number "1250".toList "7512".toList := by
  have known : Pointed "1250".toList "7512".toList := by decide
  have found : first? sight? "1250.7512".toList = some ⟨"1250.7512".toList, []⟩ := by decide
  obtain ⟨⟨-, stops⟩, pointed⟩ :=
    firstNumber_stops "1250.7512".toList "1250".toList "7512".toList
  obtain ⟨read, exact_iff⟩ := pointed known
  have long : 3 < "1250".toList.length := by decide
  exact ⟨known, stops _ found, read, exact_iff.mpr (.inl long)⟩

/-- With one digit before the point, of four behind it the last is lost. -/
theorem longFraction_cut : Pointed "1".toList "2345".toList ∧
    first? sight? "1.2345".toList = some ⟨"1.234".toList, ['5']⟩ ∧
      first? number? "1.2345".toList = some ⟨false, "1.234".toList⟩ ∧
        firstNumber? "1.2345" = some 1.234 ∧ (1.234 : Float) ≠ 1.2345 :=
  ⟨by decide, by decide, by decide, by decide +kernel, by decide +kernel⟩

end Numeral
end Docket
