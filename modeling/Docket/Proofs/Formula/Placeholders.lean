import Docket.Proofs.Formula.Parsing
import Docket.Proofs.Formula.Substitution
import Docket.Proofs.Formula.Visits
import Docket.Proofs.Text.Blank

/-! Placeholders as the trace of a formula sees them, against the references that the formula is read
with. A reference reaches from its opening bracket to the first closing one; a placeholder of the
trace holds no bracket at all. So of a reference whose name holds an opening bracket the trace sees
only what stands behind the last one, and the two agree exactly on formulas without such names. -/
namespace Docket.Text

theorem mem_lowerFrom_bracket {cs : List Char} (known : '[' ∈ cs) (before : List Char) :
    '[' ∈ lowerFrom before cs := by
  induction cs generalizing before with
  | nil => cases known
  | cons c cs ih =>
    rw [lowerFrom, List.mem_append]
    rcases List.mem_cons.mp known with rfl | known
    · left
      rw [if_neg (by decide)]
      decide
    · exact Or.inr (ih known _)

end Docket.Text

namespace Docket.Reading

theorem isDigit_of_natural? {ds : List Char} {n : Nat} (read : natural? ds = some n) :
    ∀ c ∈ ds, isDigit c = true := by
  rw [natural?] at read
  split at read
  · rename_i digits
    exact List.all_eq_true.mp digits.2
  · cases read

theorem unsigned?_bracket {limit n : Nat} {text : List Char} (read : unsigned? limit text = some n) :
    '[' ∉ text := by
  have none : isDigit '[' = false := rfl
  intro known
  have number := (Option.filter_eq_some_iff.mp read).1
  have digits := isDigit_of_natural? number '['
  rw [none] at digits
  split at digits
  · rcases List.mem_cons.mp known with other | known
    · cases other
    · cases digits known
  · cases digits known

end Docket.Reading

namespace Docket.Formula
open Formula.Grammar

theorem Kind.read?_bracket {text : List Char} {k : Kind} (read : Kind.read? text = some k) :
    '[' ∉ text := by
  intro known
  obtain ⟨before, after, entries, -⟩ := List.lookup_eq_some_iff.mp read
  have among : (Text.lower (String.ofList (Text.trimChars text)), k) ∈
      every.map fun k => (Text.lower k.word, k) := by
    rw [entries]
    simp
  obtain ⟨j, -, same⟩ := List.mem_map.mp among
  have key : Text.lower j.word = Text.lower (String.ofList (Text.trimChars text)) :=
    (Prod.mk.inj same).1
  have inside : '[' ∈ (Text.lower j.word).toList := by
    rw [key, Text.lower, String.toList_ofList, String.toList_ofList]
    exact Text.mem_lowerFrom_bracket ((Text.mem_trimChars (by decide) text).mpr known) []
  revert inside
  cases j <;> decide

namespace Reference

theorem readName?_bracket {text name : List Char} {id : Option Nat}
    (read : readName? text = some (name, id)) : '[' ∈ name ↔ '[' ∈ text := by
  rw [readName?] at read
  split at read
  · cases read
    rfl
  · rename_i front back cut
    obtain ⟨n, number, same⟩ := Option.map_eq_some_iff.mp read
    cases same
    have plain := Reading.unsigned?_bracket number
    rw [Text.mem_trimChars (by decide)] at plain
    rw [(Text.cutLast?_eq_some.mp cut).1, List.mem_append, List.mem_cons]
    simp [plain]

/-- A reference has an opening bracket in its text exactly if it has one in its name. -/
theorem read?_bracket {inner : List Char} {r : Reference} (read : read? inner = some r) :
    '[' ∈ r.name.toList ↔ '[' ∈ inner := by
  simp only [read?, Option.bind_eq_bind, Option.bind_eq_some_iff] at read
  obtain ⟨⟨front, rest⟩, cut, kind, named, ⟨name, id⟩, found, made⟩ := read
  obtain ⟨rfl, -⟩ := Text.cutFirst?_eq_some.mp cut
  simp only at made
  split at made
  · cases made
  · cases made
    have plain := Kind.read?_bracket named
    rw [String.toList_ofList, Text.mem_trimChars (by decide), readName?_bracket found,
      List.mem_append, List.mem_cons]
    simp [plain]

end Reference

namespace Piece

theorem inner?_of_bracket {inner after : List Char} (opening : '[' ∈ inner) (closed : ']' ∉ inner) :
    inner? (inner ++ ']' :: after) = none := by
  have stops : inner.dropWhile (!isBracket ·) ≠ [] := by
    intro all
    have plain := List.dropWhile_eq_nil_iff.mp all '[' opening
    revert plain
    decide
  obtain ⟨c, rest, left⟩ := List.exists_cons_of_ne_nil stops
  have bracket : isBracket c = true := by
    have head := List.head?_dropWhile_not (!isBracket ·) inner
    rw [left] at head
    simpa using head
  have other : c ≠ ']' := by
    rintro rfl
    exact closed ((List.dropWhile_suffix _).subset (left ▸ List.mem_cons_self))
  rw [inner?, List.dropWhile_append, left]
  simp only [List.isEmpty_cons, Bool.false_eq_true, if_false, List.cons_append]
  split
  · rfl
  · rename_i same
    exact absurd (List.cons.inj same).1 other
  · rfl

theorem unbracketed_of_inner? {rest inner : List Char} (found : inner? rest = some inner) :
    '[' ∉ inner := by
  intro known
  simp only [inner?] at found
  split at found
  · cases found
  · cases found
    exact absurd (List.mem_takeWhile_imp known) (by decide)
  · cases found

/-- A placeholder holds no bracket. -/
theorem unbracketed_of_mem {cs inner : List Char} (known : .placeholder inner ∈ ofChars cs) :
    '[' ∉ inner := by
  fun_induction ofChars cs with
  | case1 => cases known
  | case2 c rest text found ih =>
    rcases List.mem_cons.mp known with same | later
    · cases same
      split at found
      · exact unbracketed_of_inner? found
      · cases found
    · exact ih later
  | case3 c rest none ih =>
    rcases List.mem_cons.mp known with same | later
    · cases same
    · exact ih later

theorem ofChars_opened {rest : List Char} (none : inner? rest = none) :
    ofChars ('[' :: rest) = .plain '[' :: ofChars rest := by
  rw [ofChars, if_pos rfl, none]

/-- What stands behind a closing bracket is cut into pieces by itself. -/
theorem ofChars_closed {text : List Char} (closed : ']' ∉ text) (after : List Char) :
    ofChars (text ++ ']' :: after) = ofChars (text ++ [']']) ++ ofChars after := by
  induction text with
  | nil =>
    rw [List.nil_append, List.nil_append, ofChars_cons (by decide), ofChars_cons (by decide),
      ofChars_nil]
    rfl
  | cons c text ih =>
    have behind : ']' ∉ text := fun known => closed (List.mem_cons_of_mem c known)
    rw [List.cons_append, List.cons_append]
    by_cases opening : c = '['
    · subst opening
      by_cases whole : text ≠ [] ∧ '[' ∉ text
      · rw [ofChars_placeholder whole.1 whole.2 behind, ofChars_placeholder whole.1 whole.2 behind,
          ofChars_nil]
        rfl
      · -- Nothing or another opening bracket behind it: this one opens no placeholder.
        have none (tail : List Char) : inner? (text ++ ']' :: tail) = none := by
          by_cases bracket : '[' ∈ text
          · exact inner?_of_bracket bracket behind
          · obtain rfl : text = [] := by_contra fun nonempty => whole ⟨nonempty, bracket⟩
            rfl
        rw [ofChars_opened (none after), ofChars_opened (none []), ih behind, List.cons_append]
    · rw [ofChars_cons opening, ofChars_cons opening, ih behind, List.cons_append]

end Piece

theorem referenceOf_mark {t : Token} (mark : t.isWord = false) : referenceOf t = none := by
  cases t <;> first | rfl | cases mark

/-- The references of the placeholders that a trace replaces by values. -/
def placeholders (cs : List Char) : List Reference := (Piece.ofChars cs).filterMap (·.reference?)

/-- A character or a reference with its brackets. -/
inductive Piece.Formed : Piece → Prop
  | plain (c : Char) : Formed (.plain c)
  | reference {inner : List Char} {r : Reference} (closed : ']' ∉ inner)
      (read : Reference.read? inner = some r) : Formed (.placeholder inner)

/-- A reference is a piece of the trace too, unless its name holds a bracket. -/
theorem Piece.Formed.ofChars_source {p : Piece} (formed : p.Formed) {r : Reference}
    (read : p.reference? = some r) (plain : '[' ∉ r.name.toList) : ofChars p.source = [p] := by
  cases formed with
  | plain c => cases read
  | @reference inner r' closed read' =>
    have nonempty : inner ≠ [] := by
      rintro rfl
      cases read
    have opening : '[' ∉ inner := (Reference.read?_bracket read).not.mp plain
    have alone := ofChars_placeholder nonempty opening closed []
    rwa [ofChars_nil] at alone

theorem placeholders_source {p : Piece} (formed : p.Formed)
    (plain : ∀ r, p.reference? = some r → '[' ∉ r.name.toList) :
    placeholders p.source = p.reference?.toList := by
  cases read : p.reference? with
  | some r =>
    rw [placeholders, formed.ofChars_source read (plain r read), List.filterMap_cons, read]
    rfl
  | none =>
    cases formed with
    | plain c =>
      have alone : Piece.ofChars [c] = [.plain c] := by
        by_cases opening : c = '['
        · rw [opening, Piece.ofChars_opened rfl, Piece.ofChars_nil]
        · rw [Piece.ofChars_cons opening, Piece.ofChars_nil]
      rw [placeholders, Piece.source, alone]
      rfl
    | reference closed read' =>
      rw [Piece.reference?, read'] at read
      cases read

/-- A text in pieces as its tokens cut it: a placeholder for each reference and every other character
by itself. The trace cuts no further than within these pieces. -/
structure Cut (cs : List Char) (rs : List Reference) (pieces : List Piece) : Prop where
  whole : pieces.flatMap Piece.source = cs
  references : pieces.filterMap Piece.reference? = rs
  formed : ∀ p ∈ pieces, p.Formed
  apart : Piece.ofChars cs = pieces.flatMap fun p => Piece.ofChars p.source

namespace Cut
variable {cs : List Char} {rs : List Reference} {pieces : List Piece}

theorem plain {c : Char} (other : c ≠ '[') (cut : Cut cs rs pieces) :
    Cut (c :: cs) rs (.plain c :: pieces) where
  whole := congrArg (c :: ·) cut.whole
  references := cut.references
  formed := List.forall_mem_cons.mpr ⟨.plain c, cut.formed⟩
  apart := by
    rw [Piece.ofChars_cons other, cut.apart, List.flatMap_cons, Piece.source,
      Piece.ofChars_cons other, Piece.ofChars_nil]
    rfl

theorem plainText {text : List Char} (other : '[' ∉ text) (cut : Cut cs rs pieces) :
    Cut (text ++ cs) rs (text.map .plain ++ pieces) := by
  induction text with
  | nil => exact cut
  | cons c text ih =>
    have first : c ≠ '[' := fun same => other (same ▸ List.mem_cons_self)
    exact (ih fun known => other (List.mem_cons_of_mem c known)).plain first

theorem reference {inner : List Char} {r : Reference} (closed : ']' ∉ inner)
    (read : Reference.read? inner = some r) (cut : Cut cs rs pieces) :
    Cut ('[' :: (inner ++ [']']) ++ cs) (r :: rs) (.placeholder inner :: pieces) where
  whole := by rw [List.flatMap_cons, cut.whole, Piece.source]; rfl
  references := by rw [List.filterMap_cons, Piece.reference?, read, cut.references]
  formed := List.forall_mem_cons.mpr ⟨.reference closed read, cut.formed⟩
  apart := by
    have opened : ']' ∉ '[' :: inner := by simp [closed]
    have split := Piece.ofChars_closed opened cs
    rw [List.flatMap_cons, ← cut.apart, Piece.source]
    simpa only [List.cons_append, List.append_assoc, List.nil_append] using split

theorem substituted_eq (cut : Cut cs rs pieces) (resolve : Resolver) :
    substituted resolve cs = pieces.flatMap fun p => substituted resolve p.source := by
  rw [substituted, cut.apart, List.flatMap_assoc]
  rfl

theorem mem_references (cut : Cut cs rs pieces) {p : Piece} {r : Reference} (known : p ∈ pieces)
    (read : p.reference? = some r) : r ∈ rs :=
  cut.references ▸ List.mem_filterMap.mpr ⟨p, known, read⟩

/-- The trace replaces the references of a text exactly if no name holds an opening bracket. -/
theorem placeholders_iff (cut : Cut cs rs pieces) :
    placeholders cs = rs ↔ ∀ r ∈ rs, '[' ∉ r.name.toList := by
  constructor
  · intro same r known
    rw [← same, placeholders, List.mem_filterMap] at known
    obtain ⟨p, known, read⟩ := known
    cases p with
    | plain c => cases read
    | placeholder inner =>
      exact (Reference.read?_bracket read).not.mpr (Piece.unbracketed_of_mem known)
  · intro plain
    rw [placeholders, cut.apart, List.filterMap_flatMap, ← cut.references,
      List.filterMap_eq_flatMap_toList]
    refine List.flatMap_congr fun p known => ?_
    exact placeholders_source (cut.formed p known) fun r read =>
      plain r (cut.mem_references known read)

end Cut

theorem Scans.cut {cs : List Char} {ts : List Token} (scans : Scans cs ts) :
    ∃ pieces, Cut cs (ts.filterMap referenceOf) pieces := by
  induction scans with
  | done => exact ⟨[], rfl, rfl, by simp, by rw [Piece.ofChars_nil]; rfl⟩
  | @blank c rest ts blank more ih =>
    obtain ⟨pieces, cut⟩ := ih
    have other : c ≠ '[' := by
      rintro rfl
      cases blank
    exact ⟨_, cut.plain other⟩
  | @token c text after t ts visible reads more ih =>
    obtain ⟨pieces, cut⟩ := ih
    cases named : referenceOf t with
    | none =>
      rw [List.filterMap_cons, named]
      have other (r : Reference) : t ≠ .reference r := by
        rintro rfl
        cases named
      exact ⟨_, cut.plainText (reads.plain other)⟩
    | some r =>
      rw [List.filterMap_cons, named]
      cases reads with
      | reference closed read =>
        cases named
        exact ⟨_, cut.reference closed read⟩
      | operator apart opening starts found =>
        rw [referenceOf_mark (operator?_mark found)] at named
        cases named
      | number | ident => cases named

/-- The placeholders that the trace of a formula replaces by values are the references that the
formula is read with, in their order, exactly if no name of them holds an opening bracket. Every
reference whose name holds none is shown in its place by the value that its evaluation gives. -/
theorem placeholders_eq_references_iff {formula : String} {e : Expr}
    (parsed : parse formula = .ok e) :
    (placeholders formula.toList = e.references ↔ ∀ r ∈ e.references, '[' ∉ r.name.toList) ∧
    ∃ pieces : List Piece, pieces.flatMap Piece.source = formula.toList ∧
      pieces.filterMap Piece.reference? = e.references ∧
      ∀ scope : Scope,
        (run formula scope).substituted.toList =
          pieces.flatMap (fun p => substituted scope.resolve p.source) ∧
        ∀ p ∈ pieces, ∀ r, p.reference? = some r → '[' ∉ r.name.toList →
          ∃ x, (Expr.reference r).value scope.resolve = .ok x ∧
            substituted scope.resolve p.source = Piece.operand x := by
  obtain ⟨lexemes, scanned, d, spells, rfl⟩ := parse_sound parsed
  obtain ⟨pieces, cut⟩ := (scan_iff_scans.mp ⟨lexemes, scanned, rfl⟩).cut
  rw [← spells, ← d.references] at cut
  refine ⟨cut.placeholders_iff, pieces, cut.whole, cut.references, fun scope => ⟨?_, ?_⟩⟩
  · rw [← cut.substituted_eq]
    exact String.toList_ofList
  · intro p known r read plain
    refine ⟨_, Expr.value_reference r, ?_⟩
    rw [substituted, (cut.formed p known).ofChars_source read plain, List.flatMap_singleton,
      Piece.substituted, read]

/-- Both references of a product are replaced. -/
theorem placeholders_eq_references_iff_product :
    let formula := "[Input:Net] * [Constant:Vat]"
    let e := Expr.binary .mul (.reference ⟨.input, "Net", none⟩) (.reference ⟨.constant, "Vat", none⟩)
    parse formula = .ok e ∧ placeholders formula.toList = e.references := by
  intro formula e
  have parsed : parse formula = .ok e := by cbv
  refine ⟨parsed, (placeholders_eq_references_iff parsed).1.mpr ?_⟩
  intro r known
  have either : r = ⟨.input, "Net", none⟩ ∨ r = ⟨.constant, "Vat", none⟩ := by
    simpa [e, Expr.references] using known
  rcases either with rfl | rfl <;> decide

def netAndRate : Scope :=
  ⟨⟨⟨[("Net[Constant:Vat", 7.0)]⟩, .empty, ⟨[("Vat", 0.5)]⟩⟩, .empty⟩

/-- A field whose name goes on like a reference: the formula reads the field, and the trace leaves it
and replaces what the name goes on with. -/
theorem bracketed_name_misread :
    let formula := "[Input:Net[Constant:Vat]"
    let e := Expr.reference ⟨.input, "Net[Constant:Vat", none⟩
    parse formula = .ok e ∧ placeholders formula.toList ≠ e.references ∧
      (run formula netAndRate).value = .ok 7.0 ∧
      (run formula netAndRate).substituted = "[Input:Net0.5" := by
  intro formula e
  have parsed : parse formula = .ok e := by cbv
  have known : netAndRate.resolve ⟨.input, "Net[Constant:Vat", none⟩ = some 7.0 := rfl
  have finite : (7.0 : Float).isFinite = true := by decide +kernel
  refine ⟨parsed, by decide +kernel, ?_, by decide +kernel⟩
  simp [run, parsed, e, Expr.evaluate, Expr.eval, known, finite]

end Docket.Formula
