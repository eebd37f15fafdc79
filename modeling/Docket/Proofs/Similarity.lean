import Docket.Proofs.Exact
import Docket.Proofs.Text.Normal

/-! The range of similarities. Every way of comparing two texts counts a part of a whole, so a score
lies between zero and one; what scores at all has a text that is not blank. -/
namespace Docket.Similarity

theorem score_of_blank {α : Type} [Scalar α] {a b : String}
    (blank : Text.isBlankText a = true ∨ Text.isBlankText b = true) : (score a b : α) = 0 := by
  rw [← normal_eq_empty_iff, ← normal_eq_empty_iff] at blank
  rw [score, ofNormal, if_pos (by simpa using blank)]

section Exact
variable {K : Type} [ExactNumber K]

/-- Between zero and one. -/
def InUnit (x : K) : Prop := 0 ≤ x ∧ x ≤ 1

theorem inUnit_share {part whole : Nat} (less : part ≤ whole) : InUnit (share part whole : K) := by
  rw [share, Exact.ofNat_eq, Exact.ofNat_eq]
  exact ⟨by positivity, div_le_one_of_le₀ (Nat.cast_le.mpr less) (Nat.cast_nonneg _)⟩

theorem inUnit_ratio {n d : Nat} (less : n ≤ d) : InUnit (Scalar.ratio n d : K) := inUnit_share less

theorem InUnit.max {x y : K} (first : InUnit x) (second : InUnit y) :
    InUnit (Scalar.max x y) := by
  rw [Exact.max_eq]
  exact ⟨le_max_of_le_left first.1, max_le first.2 second.2⟩

theorem InUnit.min {x y : K} (first : InUnit x) (second : InUnit y) :
    InUnit (Scalar.min x y) := by
  rw [Exact.min_eq]
  exact ⟨le_min first.1 second.1, min_le_of_left_le first.2⟩

theorem agreement_le (as bs : List Char) : agreement as bs ≤ as.length := by
  induction as generalizing bs with
  | nil => simp [agreement]
  | cons a as ih =>
    cases bs with
    | nil => simp [agreement]
    | cons b bs =>
      have rest := ih bs
      rw [agreement, List.length_cons]
      split <;> omega

theorem inUnit_overlap {a b : String} {s : K} (told : overlap? a b = some s) : InUnit s := by
  unfold overlap? at told
  dsimp only at told
  split at told
  · split at told
    · cases told
      refine inUnit_share (Nat.le_trans ?_ (Nat.le_max_left _ _))
      exact List.length_filter_le _ _
    · cases told
  · cases told

theorem inUnit_ofNormal (a b : String) : InUnit (ofNormal a b : K) := by
  have nothing : InUnit (0 : K) := ⟨le_refl 0, zero_le_one⟩
  have everything : InUnit (1 : K) := ⟨zero_le_one, le_refl 1⟩
  unfold ofNormal
  split
  · exact nothing
  · split
    · exact everything
    · split
      · exact (inUnit_share (min_le_max)).max (inUnit_ratio (by decide))
      · split
        · rename_i s told
          exact inUnit_overlap told
        · refine inUnit_share (Nat.le_trans ?_ (Nat.le_max_left _ _))
          exact String.length_toList ▸ agreement_le a.toList b.toList

theorem inUnit_score (expected found : String) : InUnit (score expected found : K) :=
  inUnit_ofNormal _ _

theorem not_blank_of_score {expected found : String} (scored : 0 < (score expected found : K)) :
    Text.isBlankText found = false := by
  refine Bool.eq_false_iff.mpr fun blank => ?_
  rw [score_of_blank (.inr blank)] at scored
  exact lt_irrefl 0 scored

theorem not_blank_of_normal {s : String} (some : (normal s).isEmpty = false) :
    Text.isBlankText (normal s) = false := by
  refine Bool.eq_false_iff.mpr fun blank => ?_
  rw [isBlankText_normal, ← normal_eq_empty_iff, ← String.isEmpty_iff, some] at blank
  cases blank

end Exact

end Docket.Similarity
