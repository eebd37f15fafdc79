import Docket.Proofs.Calibration.Recovery

/-! Whether a calibration leaves fields any size. A scale is a middle of ratios, and a ratio is zero
where two anchors that lie apart in the template were found in one column or one row. A scale
therefore vanishes exactly when more than half of the pairs that tell it came together. -/
namespace Docket.CalibrationReport

section Exact
variable {K : Type} [ExactNumber K]

/-- What calibration makes of the anchors of a template, one by one. -/
def located (rule : CalibrationRule K) (gather : RegionRule K) (t : Template K)
    (source : PageSource K) : List (AnchorMatch K) :=
  (locateAll rule gather source t.orderedAnchors ⟨[], []⟩).1

theorem calibrate_eq (rule : CalibrationRule K) (gather : RegionRule K) (t : Template K)
    (source : PageSource K) :
    calibrate rule gather t source = estimate rule (located rule gather t source)
      (locateAll rule gather source t.orderedAnchors ⟨[], []⟩).2.warnings := rfl

theorem matched_ne_nil {rule : CalibrationRule K} {anchors : List (AnchorMatch K)}
    {warnings : List String} (some : anchors ≠ [])
    (kept : (estimate rule anchors warnings).fallbackReason = none) : matched anchors ≠ [] := by
  intro nil
  have nonempty : anchors.isEmpty = false := by simpa using some
  have zero : (anchors.filter counts).length = 0 := by
    rw [show anchors.filter counts = [] from nil, List.length_nil]
  revert kept
  simp only [estimate, nonempty, Bool.false_eq_true, if_false, zero, fallback?, if_true]
  exact fun kept => by cases kept

theorem scale_of_discarded {rule : CalibrationRule K} {anchors : List (AnchorMatch K)}
    {warnings : List String} (discarded : (estimate rule anchors warnings).fallbackReason ≠ none) :
    (estimate rule anchors warnings).transformation.scaleX = 1 ∧
      (estimate rule anchors warnings).transformation.scaleY = 1 := by
  revert discarded
  unfold estimate
  split
  · exact fun _ => ⟨rfl, rfl⟩
  · dsimp only
    split
    · exact fun _ => ⟨rfl, rfl⟩
    · exact fun kept => absurd rfl kept

theorem scaleOn_pos_iff {rule : CalibrationRule K} (positive : 0 < rule.minPairDistance)
    (axis : Rect K → K) (ms : List (AnchorMatch K)) :
    0 ≤ scaleOn rule axis ms ∧
      (0 < scaleOn rule axis ms ↔ Statistics.Told rule.minPairDistance (places axis ms)) := by
  by_cases several : 2 ≤ ms.length
  · rw [scaleOn, if_pos several]
    exact Statistics.scale_pos_iff positive _
  · have few : (places axis ms).length ≤ 1 := by
      have fewer : (places axis ms).length ≤ ms.length := List.length_filterMap_le ..
      omega
    have told : Statistics.Told rule.minPairDistance (places axis ms) := by
      unfold Statistics.Told Statistics.widePairs
      cases found : places axis ms with
      | nil => exact Nat.le_refl _
      | cons p rest =>
        cases rest with
        | nil => exact Nat.le_refl _
        | cons q rest =>
          simp only [found, List.length_cons] at few
          omega
    rw [scaleOn, if_neg several]
    exact ⟨zero_le_one, iff_of_true zero_lt_one told⟩

/-- What a scale on one axis comes to, whatever became of the estimate. -/
theorem estimate_scale_pos_iff {rule : CalibrationRule K} (positive : 0 < rule.minPairDistance)
    (anchors : List (AnchorMatch K)) (warnings : List String) :
    let r := estimate rule anchors warnings
    let b := basis rule anchors
    (0 ≤ r.transformation.scaleX ∧ (0 < r.transformation.scaleX ↔ r.fallbackReason ≠ none ∨
      Statistics.Told rule.minPairDistance (places (·.x) b))) ∧
    (0 ≤ r.transformation.scaleY ∧ (0 < r.transformation.scaleY ↔ r.fallbackReason ≠ none ∨
      Statistics.Told rule.minPairDistance (places (·.y) b))) := by
  intro r b
  by_cases kept : r.fallbackReason = none
  · simp only [kept, ne_eq, not_true_eq_false, false_or]
    by_cases some : anchors = []
    · subst some
      exact ⟨⟨zero_le_one, iff_of_true zero_lt_one (Nat.le_refl _)⟩, zero_le_one,
        iff_of_true zero_lt_one (Nat.le_refl _)⟩
    · obtain ⟨⟨scaleX, -⟩, scaleY, -⟩ := estimate_transformation (matched_ne_nil some kept) kept
      rw [show r.transformation.scaleX = _ from scaleX,
        show r.transformation.scaleY = _ from scaleY]
      exact ⟨scaleOn_pos_iff positive _ b, scaleOn_pos_iff positive _ b⟩
  · obtain ⟨scaleX, scaleY⟩ := scale_of_discarded kept
    rw [show r.transformation.scaleX = 1 from scaleX, show r.transformation.scaleY = 1 from scaleY]
    exact ⟨⟨zero_le_one, iff_of_true zero_lt_one (Or.inl kept)⟩, zero_le_one,
      iff_of_true zero_lt_one (Or.inl kept)⟩

/-- Whether every rectangle that has a size is moved to one that has. -/
def KeepsSizes (t : Transformation K) : Prop :=
  ∀ r : Rect K, 0 < r.width → 0 < r.height → 0 < (t.apply r).width ∧ 0 < (t.apply r).height

theorem keepsSizes_iff (t : Transformation K) : KeepsSizes t ↔ 0 < t.scaleX ∧ 0 < t.scaleY := by
  constructor
  · intro keeps
    have unit := keeps ⟨0, 0, 1, 1⟩ zero_lt_one zero_lt_one
    simpa only [Transformation.apply, one_mul] using unit
  · rintro ⟨scaleX, scaleY⟩ r width height
    exact ⟨mul_pos width scaleX, mul_pos height scaleY⟩

/-- Calibration keeps every field a size unless, in an estimate that was kept, more than half of
the pairs that tell a scale were found in one column or one row. -/
theorem calibrate_keepsSizes_iff (rule : CalibrationRule K) (positive : 0 < rule.minPairDistance)
    (gather : RegionRule K) (t : Template K) (source : PageSource K) :
    let r := calibrate rule gather t source
    let b := basis rule (located rule gather t source)
    (0 ≤ r.transformation.scaleX ∧ (0 < r.transformation.scaleX ↔ r.fallbackReason ≠ none ∨
      Statistics.Told rule.minPairDistance (places (·.x) b))) ∧
    (0 ≤ r.transformation.scaleY ∧ (0 < r.transformation.scaleY ↔ r.fallbackReason ≠ none ∨
      Statistics.Told rule.minPairDistance (places (·.y) b))) ∧
    (KeepsSizes r.transformation ↔ r.fallbackReason ≠ none ∨
      Statistics.Told rule.minPairDistance (places (·.x) b) ∧
        Statistics.Told rule.minPairDistance (places (·.y) b)) := by
  intro r b
  obtain ⟨x, y⟩ := estimate_scale_pos_iff positive (located rule gather t source)
    (locateAll rule gather source t.orderedAnchors ⟨[], []⟩).2.warnings
  rw [← calibrate_eq] at x y
  refine ⟨x, y, ?_⟩
  rw [keepsSizes_iff, show (0 < r.transformation.scaleX ↔ _) from x.2,
    show (0 < r.transformation.scaleY ↔ _) from y.2, or_and_left]

end Exact

def label (name : String) (x y : ℚ) : Anchor ℚ := ⟨name, name, 1, ⟨x, y, 60, 12⟩, 0⟩

/-- Two anchors that lie twenty units apart across the page. -/
def labels : Template ℚ :=
  ⟨"labels", "", "", .standard, [], [label "Alpha" 50 50, label "Beta" 70 300]⟩

theorem labels_ordered : labels.orderedAnchors = labels.anchors :=
  List.mergeSort_of_pairwise (by decide)

/-- A page that shows the first anchor where it belongs and the second so far from the left. -/
def labelled (x : ℚ) : PageSource ℚ :=
  ⟨1, fun _ => .ok [⟨"Alpha", ⟨50, 50, 60, 12⟩⟩, ⟨"Beta", ⟨x, 300, 60, 12⟩⟩]⟩

theorem calibrate_keepsSizes_iff_labels :
    (0 : ℚ) < (CalibrationRule.standard : CalibrationRule ℚ).minPairDistance ∧
      (calibrate .standard .standard labels (labelled 80)).fallbackReason = none ∧
      KeepsSizes (calibrate .standard .standard labels (labelled 80)).transformation := by
  have positive : (0 : ℚ) < (CalibrationRule.standard : CalibrationRule ℚ).minPairDistance := by
    decide +kernel
  have kept : (calibrate .standard .standard labels (labelled 80)).fallbackReason = none := by
    simp only [calibrate, labels_ordered]
    decide +kernel
  refine ⟨positive, kept, ?_⟩
  apply (calibrate_keepsSizes_iff .standard positive .standard labels (labelled 80)).2.2.mpr
  right
  simp only [located, labels_ordered]
  decide +kernel

/-- Anchors found in one column leave no field any width. -/
theorem labels_collapse :
    ¬ ∀ (rule : CalibrationRule ℚ) (gather : RegionRule ℚ) (t : Template ℚ)
      (source : PageSource ℚ), 0 < rule.minPairDistance →
      0 < (calibrate rule gather t source).transformation.scaleX ∧
        0 < (calibrate rule gather t source).transformation.scaleY := by
  intro keeps
  have width := (keeps .standard .standard labels (labelled 50) (by decide +kernel)).1
  revert width
  simp only [calibrate, labels_ordered]
  decide +kernel

end Docket.CalibrationReport
