import Docket.Proofs.Calibration.Recovery
import Docket.Proofs.Order
import Docket.Proofs.Similarity

/-! The score of two texts rule by rule. Each rule counts alike from both sides, and the rules are
asked in one order, so the score is symmetric. A rule gives the whole score only where nothing is
left over: texts inside each other are as long, words in common are all the words, and characters
that agree are all the characters. -/
namespace Docket.Similarity

/-- The different words of a text as a set. -/
def vocabulary (s : String) : Finset String := (Text.words s).toFinset

theorem toFinset_wordSet (s : String) : (wordSet s).toFinset = vocabulary s := by
  ext w
  simp [wordSet, vocabulary, List.mem_eraseDups]

theorem nodup_wordSet (s : String) : (wordSet s).Nodup := nodup_eraseDups _

theorem length_wordSet (s : String) : (wordSet s).length = (vocabulary s).card := by
  rw [← toFinset_wordSet, List.toFinset_card_of_nodup (nodup_wordSet s)]

theorem length_common (a b : String) :
    ((wordSet a).filter ((wordSet b).contains ·)).length = (vocabulary a ∩ vocabulary b).card := by
  rw [← List.toFinset_card_of_nodup ((nodup_wordSet a).filter _), ← toFinset_wordSet,
    ← toFinset_wordSet]
  congr 1
  ext w
  simp

theorem agreement_comm (as bs : List Char) : agreement as bs = agreement bs as := by
  induction as generalizing bs with
  | nil => cases bs <;> rfl
  | cons a as ih =>
    cases bs with
    | nil => rfl
    | cons b bs =>
      rw [agreement, agreement, ih bs]
      simp only [eq_comm]

/-- Texts agree in all the characters of both only if they are one. -/
theorem eq_of_agreement {as bs : List Char} (all : max as.length bs.length ≤ agreement as bs) :
    as = bs := by
  induction as generalizing bs with
  | nil => cases bs <;> simp_all [agreement]
  | cons a as ih =>
    cases bs with
    | nil => simp [agreement] at all
    | cons b bs =>
      rw [agreement, List.length_cons, List.length_cons] at all
      have few := agreement_le as bs
      split at all
      · rename_i same
        have rest : as = bs := ih (by omega)
        rw [same, rest]
      · omega

section Any
variable {α : Type} [Scalar α]

theorem overlap?_eq (a b : String) :
    (overlap? a b : Option α) =
      if 2 ≤ (vocabulary a).card ∨ 2 ≤ (vocabulary b).card then
        let s := share (vocabulary a ∩ vocabulary b).card
          (max (vocabulary a).card (vocabulary b).card)
        if overlapFloor < s then some s else none
      else none := by
  rw [overlap?]
  dsimp only
  rw [length_common, length_wordSet, length_wordSet]
  rfl

theorem overlap?_comm (a b : String) : (overlap? a b : Option α) = overlap? b a := by
  simp only [overlap?_eq, or_comm, Finset.inter_comm, max_comm]

theorem ofNormal_comm (a b : String) : (ofNormal a b : α) = ofNormal b a := by
  simp only [ofNormal, overlap?_comm a b, agreement_comm a.toList, Bool.or_comm a.isEmpty,
    Bool.or_comm (Text.contains a b), min_comm a.length, max_comm a.length, eq_comm (a := a)]

section Rules
variable {a b : String} (some : a ≠ "") (some' : b ≠ "") (differ : a ≠ b)
include some some' differ

theorem ofNormal_inside (inside : Text.contains a b = true ∨ Text.contains b a = true) :
    (ofNormal a b : α) =
      Scalar.max (share (min a.length b.length) (max a.length b.length)) containment := by
  rw [ofNormal, if_neg (by simp [some, some']), if_neg differ, if_pos (by simpa using inside)]

theorem ofNormal_apart (apart : Text.contains a b = false) (apart' : Text.contains b a = false) :
    (ofNormal a b : α) =
      (overlap? a b).getD (share (agreement a.toList b.toList) (max a.length b.length)) := by
  rw [ofNormal, if_neg (by simp [some, some']), if_neg differ, if_neg (by simp [apart, apart'])]
  cases (overlap? a b : Option α) <;> rfl

end Rules

theorem ofNormal_self {a : String} (some : a ≠ "") : (ofNormal a a : α) = 1 := by
  rw [ofNormal, if_neg (by simp [some]), if_pos rfl]

/-- One text inside another scores at least what containment does, in any arithmetic that compares
that value with the whole and takes the greater. -/
theorem containment_le_ofNormal (whole : (containment : α) ≤ 1)
    (greater : ∀ x : α, containment ≤ Scalar.max x containment) {a b : String} (some : a ≠ "")
    (some' : b ≠ "") (inside : Text.contains a b = true ∨ Text.contains b a = true) :
    containment ≤ (ofNormal a b : α) := by
  rcases eq_or_ne a b with rfl | differ
  · rw [ofNormal_self some]
    exact whole
  · rw [ofNormal_inside some some' differ inside]
    exact greater _

end Any

section Exact
variable {K : Type} [ExactNumber K]

theorem ratio_eq (n d : Nat) : (Scalar.ratio n d : K) = n / d := rfl

theorem share_eq_one_iff {part whole : Nat} (some : 0 < whole) :
    (share part whole : K) = 1 ↔ part = whole := by
  have positive : (whole : K) ≠ 0 := Nat.cast_ne_zero.mpr some.ne'
  rw [share, Exact.ofNat_eq, Exact.ofNat_eq, div_eq_one_iff_eq positive, Nat.cast_inj]

theorem overlap?_eq_one_iff (a b : String) :
    overlap? a b = some (1 : K) ↔ vocabulary a = vocabulary b ∧ 2 ≤ (vocabulary a).card := by
  rw [overlap?_eq]
  constructor
  · intro whole
    split at whole
    · rename_i several
      dsimp only at whole
      split at whole
      · have all := (share_eq_one_iff (by omega)).mp (Option.some.inj whole)
        have left : vocabulary a ∩ vocabulary b = vocabulary a :=
          Finset.eq_of_subset_of_card_le Finset.inter_subset_left (by omega)
        have right : vocabulary a ∩ vocabulary b = vocabulary b :=
          Finset.eq_of_subset_of_card_le Finset.inter_subset_right (by omega)
        have same := left.symm.trans right
        rw [same] at several ⊢
        exact ⟨rfl, several.elim id id⟩
      · cases whole
    · cases whole
  · rintro ⟨same, several⟩
    have all : (share (vocabulary b).card (vocabulary b).card : K) = 1 :=
      (share_eq_one_iff (by rw [← same]; omega)).mpr rfl
    have floor : (overlapFloor : K) < 1 := by
      rw [overlapFloor, ratio_eq]
      norm_num
    rw [if_pos (.inl several), same, Finset.inter_self, max_self]
    dsimp only
    rw [all, if_pos floor]

theorem containment_lt : (containment : K) < 1 := by
  rw [containment, ratio_eq]
  norm_num

theorem length_pos {s : String} (some : s ≠ "") : 0 < s.length := by
  rw [← String.length_toList]
  exact List.length_pos_iff.mpr (mt String.toList_eq_nil_iff.mp some)

section Apart
variable {a b : String} (some : a ≠ "") (differ : a ≠ b)
include some differ

theorem inside_ne_one (inside : Text.contains a b = true ∨ Text.contains b a = true) :
    Scalar.max (share (min a.length b.length) (max a.length b.length)) containment ≠ (1 : K) := by
  intro whole
  rw [Exact.max_eq] at whole
  have long : 0 < max a.length b.length := lt_max_of_lt_left (length_pos some)
  have all : (share (min a.length b.length) (max a.length b.length) : K) = 1 := by
    rcases max_choice (share (min a.length b.length) (max a.length b.length))
      (containment : K) with first | second
    · exact first.symm.trans whole
    · exact absurd (second.symm.trans whole) containment_lt.ne
  have lengths := (share_eq_one_iff long).mp all
  rcases inside with inside | inside
  · exact differ (Text.eq_of_contains inside (by omega)).symm
  · exact differ (Text.eq_of_contains inside (by omega))

theorem agreement_ne_one :
    share (agreement a.toList b.toList) (max a.length b.length) ≠ (1 : K) := by
  intro whole
  have all := (share_eq_one_iff (lt_max_of_lt_left (length_pos some))).mp whole
  rw [← String.length_toList, ← String.length_toList] at all
  exact differ (String.toList_inj.mp (eq_of_agreement all.ge))

/-- Texts apart have the whole score only for the same several words. -/
theorem apart_eq_one_iff :
    (overlap? a b).getD (share (agreement a.toList b.toList) (max a.length b.length)) = (1 : K) ↔
      vocabulary a = vocabulary b ∧ 2 ≤ (vocabulary a).card := by
  have words := overlap?_eq_one_iff (K := K) a b
  cases told : (overlap? a b : Option K) with
  | none =>
    rw [told] at words
    exact iff_of_false (agreement_ne_one some differ) (mt words.mpr nofun)
  | some s =>
    rw [told, Option.some.injEq] at words
    exact words

end Apart

/-- A score is whole only for one text, or for texts of the same several words. -/
theorem ofNormal_eq_one_iff (a b : String) :
    (ofNormal a b : K) = 1 ↔ a ≠ "" ∧ b ≠ "" ∧ (a = b ∨
      (Text.contains a b = false ∧ Text.contains b a = false ∧
        vocabulary a = vocabulary b ∧ 2 ≤ (vocabulary a).card)) := by
  by_cases empty : a = "" ∨ b = ""
  · have nothing : (ofNormal a b : K) = 0 := by
      rw [ofNormal, if_pos (by simpa using empty)]
    rw [nothing]
    exact iff_of_false zero_ne_one fun whole => empty.elim whole.1 whole.2.1
  · obtain ⟨some, some'⟩ := not_or.mp empty
    rcases eq_or_ne a b with rfl | differ
    · exact iff_of_true (ofNormal_self some) ⟨some, some', .inl rfl⟩
    · by_cases inside : Text.contains a b = true ∨ Text.contains b a = true
      · rw [ofNormal_inside some some' differ inside]
        refine iff_of_false (inside_ne_one some differ inside) ?_
        rintro ⟨-, -, same | ⟨apart, apart', -⟩⟩
        · exact differ same
        · rw [apart, apart'] at inside
          exact inside.elim Bool.noConfusion Bool.noConfusion
      · rw [not_or, Bool.not_eq_true, Bool.not_eq_true] at inside
        rw [ofNormal_apart some some' differ inside.1 inside.2, apart_eq_one_iff some differ]
        simp [some, some', differ, inside]

/-- What a score says about two texts. -/
structure Grades (a b : String) (s : K) : Prop where
  unit : 0 ≤ s ∧ s ≤ 1
  blank : Text.isBlankText a = true ∨ Text.isBlankText b = true → s = 0
  inside : Text.isBlankText a = false → Text.isBlankText b = false →
    (normal a).toList <:+: (normal b).toList ∨ (normal b).toList <:+: (normal a).toList →
    8 / 10 ≤ s
  whole : s = 1 ↔ Text.isBlankText a = false ∧ Text.isBlankText b = false ∧
    (normal a = normal b ∨
      (¬ (normal a).toList <:+: (normal b).toList ∧ ¬ (normal b).toList <:+: (normal a).toList ∧
        vocabulary (normal a) = vocabulary (normal b) ∧ 2 ≤ (vocabulary (normal a)).card))

/-- The score does not depend on which text is expected, and it grades both. -/
theorem score_grades (a b : String) :
    (score a b : K) = score b a ∧ Grades a b (score a b : K) := by
  have solid {s : String} : Text.isBlankText s = false ↔ normal s ≠ "" := by
    rw [ne_eq, normal_eq_empty_iff, Bool.not_eq_true]
  refine ⟨ofNormal_comm _ _, inUnit_score a b, score_of_blank, fun some some' inside => ?_, ?_⟩
  · have eight : (containment : K) = 8 / 10 := by
      rw [containment, ratio_eq]
      norm_num
    rw [← eight]
    rw [← Text.contains_iff, ← Text.contains_iff] at inside
    refine containment_le_ofNormal containment_lt.le (fun x => ?_) (solid.mp some)
      (solid.mp some') inside.symm
    rw [Exact.max_eq]
    exact le_max_right _ _
  · rw [score, ofNormal_eq_one_iff, solid, solid, ← Text.contains_iff, ← Text.contains_iff,
      Bool.not_eq_true, Bool.not_eq_true]
    simp only [and_left_comm]

/-- Two words in another order, with a space in front, score all. -/
theorem score_grades_due : (score "Due amount" " amount due" : ℚ) = 1 := by
  refine (score_grades (K := ℚ) "Due amount" " amount due").2.whole.mpr ?_
  decide +kernel

end Exact

end Docket.Similarity
