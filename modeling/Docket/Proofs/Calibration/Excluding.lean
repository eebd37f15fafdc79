import Docket.Proofs.Calibration.Reordering

/-! Leaving outliers out of an estimate. The offsets and the scales rest on the anchors that count
and do not stray, and so come out as if the straying ones had not been there. Rates, confidence and
distortion are still those of all anchors. -/
namespace Docket.CalibrationReport

variable {α : Type} [Scalar α]

/-- The rule that uses every anchor that counts. -/
def including (rule : CalibrationRule α) : CalibrationRule α :=
  { rule with excludeOutliers := false }

/-- The rule that leaves the outliers out. -/
def excluding (rule : CalibrationRule α) : CalibrationRule α :=
  { rule with excludeOutliers := true }

/-- The located anchors without the ones that stray. -/
def trimmed (rule : CalibrationRule α) (ms : List (AnchorMatch α)) : List (AnchorMatch α) :=
  ms.filter fun m => !strays rule ms m

theorem matched_trimmed (rule : CalibrationRule α) (ms : List (AnchorMatch α)) :
    matched (trimmed rule ms) = ms.filter (stays (excluding rule) ms) := by
  rw [matched, trimmed, List.filter_filter]
  rfl

theorem basis_including (rule : CalibrationRule α) (ms : List (AnchorMatch α)) :
    basis (including rule) ms = matched ms := by
  have all : ms.filter (stays (including rule) ms) = matched ms :=
    List.filter_congr fun m _ => Bool.and_true _
  rw [basis_eq, all, ite_self]

/-- What is left out of the estimate might as well not be there. -/
theorem basis_excluding {rule : CalibrationRule α} {ms : List (AnchorMatch α)}
    (some : matched (trimmed rule ms) ≠ []) :
    basis (excluding rule) ms = basis (including rule) (trimmed rule ms) := by
  rw [matched_trimmed] at some
  rw [basis_including, matched_trimmed, basis_eq, if_neg (by simpa using some)]

theorem estimate_rule (rule : CalibrationRule α) (ms : List (AnchorMatch α))
    (warnings : List String) :
    let r := estimate (excluding rule) ms warnings
    let full := estimate (including rule) ms warnings
    r = { full with
      transformation :=
        { full.transformation with
          offsetX := r.transformation.offsetX
          offsetY := r.transformation.offsetY
          scaleX := r.transformation.scaleX
          scaleY := r.transformation.scaleY } } := by
  -- whether an estimate is kept does not depend on what becomes of the outliers
  have cap : (excluding rule).singleAnchorCap = (including rule).singleAnchorCap := rfl
  have reason (n : Nat) (c : α) :
      fallback? (excluding rule) n c = fallback? (including rule) n c := rfl
  unfold estimate
  split
  · rfl
  · simp only [cap, reason]
    split <;> rfl

/-- An estimate without the outliers has the offsets and the scales of an estimate from the anchors
that do not stray. All else it says is what an estimate from all anchors says, which marks the ones
that stray. -/
theorem estimate_trimmed (rule : CalibrationRule α) (ms : List (AnchorMatch α))
    (some : ∃ m ∈ matched ms, strays rule ms m = false) (warnings warnings' : List String)
    (kept : (estimate (excluding rule) ms warnings).fallbackReason = none)
    (kept' : (estimate (including rule) (trimmed rule ms) warnings').fallbackReason = none) :
    let r := estimate (excluding rule) ms warnings
    let full := estimate (including rule) ms warnings
    let rest := (estimate (including rule) (trimmed rule ms) warnings').transformation
    r = { full with
      transformation :=
        { full.transformation with
          offsetX := rest.offsetX
          offsetY := rest.offsetY
          scaleX := rest.scaleX
          scaleY := rest.scaleY } } ∧
      full.anchors = ms.map fun m => { m with isOutlier := m.isOutlier || strays rule ms m } := by
  intro r full rest
  obtain ⟨m, counted, still⟩ := some
  have left : m ∈ matched (trimmed rule ms) := by
    obtain ⟨known, counts⟩ := List.mem_filter.mp counted
    exact List.mem_filter.mpr ⟨List.mem_filter.mpr ⟨known, by simp [still]⟩, counts⟩
  have several : matched (trimmed rule ms) ≠ [] := List.ne_nil_of_mem left
  obtain ⟨⟨scaleX, offsetX⟩, scaleY, offsetY⟩ :=
    estimate_transformation (List.ne_nil_of_mem counted) kept
  obtain ⟨⟨scaleX', offsetX'⟩, scaleY', offsetY'⟩ := estimate_transformation several kept'
  rw [basis_excluding several] at scaleX offsetX scaleY offsetY
  have same : r = _ := estimate_rule rule ms warnings
  rw [offsetX, offsetY, scaleX, scaleY, ← offsetX', ← offsetY'] at same
  exact ⟨same.trans (by rw [scaleX', scaleY']; rfl), anchors_estimate (including rule) ms warnings⟩

/-- An anchor that was not found. -/
def missing : AnchorMatch ℚ := .notFound ⟨"Stamp", "Stamp", 1, ⟨200, 300, 40, 10⟩, 0⟩

/-- A doubling shown by anchors around one that strays and two that were not found. -/
def scattered : List (AnchorMatch ℚ) :=
  missing :: List.replicate 5 (doubled "Invoice" 0 0) ++ shoved :: missing ::
    List.replicate 5 (doubled "Total" 20 0)

theorem estimate_trimmed_scattered :
    let r := estimate (excluding .standard) scattered []
    let rest := estimate (including .standard) (trimmed .standard scattered) []
    (∃ m ∈ matched scattered, strays .standard scattered m = false) ∧
      strays .standard scattered shoved = true ∧
      r.fallbackReason = none ∧ rest.fallbackReason = none ∧
      r.transformation.offsetX = 10 ∧ r.transformation.scaleX = 2 ∧ r.matchRate = 11 / 13 ∧
      r.warnings = ["Anchor Total is an outlier"] := by
  have some : ∃ m ∈ matched scattered, strays .standard scattered m = false :=
    ⟨doubled "Invoice" 0 0, List.mem_filter.mpr ⟨by simp [scattered], rfl⟩, by decide +kernel⟩
  have kept : (estimate (excluding .standard) scattered []).fallbackReason = none := by
    decide +kernel
  have kept' : (estimate (including .standard) (trimmed .standard scattered) []).fallbackReason =
      none := by decide +kernel
  obtain ⟨same, -⟩ := estimate_trimmed .standard scattered some [] [] kept kept'
  refine ⟨some, by decide +kernel, kept, kept', ?_⟩
  rw [same]
  decide +kernel

end Docket.CalibrationReport
