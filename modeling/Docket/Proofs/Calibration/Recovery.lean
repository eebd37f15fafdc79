import Docket.Proofs.Calibration.Statistics
import Docket.Calibration.Report

/-! What calibration makes of anchors that all show one affine drift. The scale comes out right
wherever the used anchors lie far enough apart. The offset is a mean of shifts, which holds the
scaling of the mean place as well, and `apply` scales once more: on each axis the anchors come out
moved by the scale less one times the mean configured coordinate. -/
namespace Docket.CalibrationReport

section Basis
variable {α : Type}

theorem kept_sublist (rule : CalibrationRule α) (ms : List (AnchorMatch α)) (flags : List Bool) :
    ((ms.zip flags).filterMap fun (m, flag) =>
      if rule.excludeOutliers && flag then none else some m).Sublist ms := by
  induction ms generalizing flags with
  | nil => exact List.Sublist.refl _
  | cons m ms ih =>
    cases flags with
    | nil => exact List.nil_sublist _
    | cons flag flags =>
      rw [List.zip_cons_cons, List.filterMap_cons]
      by_cases left : (rule.excludeOutliers && flag) = true
      · simp only [left, if_true]
        exact (ih flags).cons m
      · simp only [left, Bool.false_eq_true, if_false]
        exact (ih flags).cons_cons m

theorem used_sublist (rule : CalibrationRule α) (ms : List (AnchorMatch α)) (flags : List Bool) :
    (used rule ms flags).Sublist ms := by
  simp only [used]
  split
  · exact List.Sublist.refl _
  · exact kept_sublist rule ms flags

theorem used_ne_nil (rule : CalibrationRule α) {ms : List (AnchorMatch α)} (some : ms ≠ [])
    (flags : List Bool) : used rule ms flags ≠ [] := by
  simp only [used]
  split
  · exact some
  · rename_i kept
    exact fun nil => kept (List.isEmpty_iff.mpr nil)

theorem filterMap_found {β : Type} {ms : List (AnchorMatch α)} {g : AnchorMatch α → Rect α → β}
    {h : AnchorMatch α → β} (told : ∀ m ∈ ms, ∃ f, m.found = some f ∧ g m f = h m) :
    (ms.filterMap fun m => m.found.map (g m)) = ms.map h := by
  rw [← List.filterMap_eq_map]
  refine List.filterMap_congr fun m known => ?_
  obtain ⟨f, found, same⟩ := told m known
  rw [found, Option.map_some, same]
  rfl

variable [Scalar α]

def matched (anchors : List (AnchorMatch α)) : List (AnchorMatch α) := anchors.filter counts

/-- The anchors an estimate rests on. -/
def basis (rule : CalibrationRule α) (anchors : List (AnchorMatch α)) : List (AnchorMatch α) :=
  used rule (matched anchors)
    (Statistics.outliers rule.outlierThreshold ((matched anchors).filterMap (·.offset)))

def configuredOn (axis : Rect α → α) (ms : List (AnchorMatch α)) : List α :=
  ms.map fun m => axis m.configured

def shiftsOn (axis : Rect α → α) (ms : List (AnchorMatch α)) : List α :=
  ms.filterMap fun m => m.found.map fun f => axis f - axis m.configured

theorem shiftsOn_eq {axis : Rect α → α} (pick : α × α → α)
    (picks : ∀ a b : Rect α, pick (a.x - b.x, a.y - b.y) = axis a - axis b)
    (ms : List (AnchorMatch α)) : shiftsOn axis ms = (ms.filterMap (·.offset)).map pick := by
  rw [shiftsOn, List.map_filterMap]
  refine List.filterMap_congr fun m _ => ?_
  rw [AnchorMatch.offset, Option.map_map]
  exact congrFun (congrArg Option.map (funext fun f => (picks f m.configured).symm)) _

theorem estimate_transformation {rule : CalibrationRule α} {anchors : List (AnchorMatch α)}
    {warnings : List String} (some : matched anchors ≠ [])
    (kept : (estimate rule anchors warnings).fallbackReason = none) :
    let t := (estimate rule anchors warnings).transformation
    (t.scaleX = scaleOn rule (·.x) (basis rule anchors) ∧
      t.offsetX = Statistics.mean (shiftsOn (·.x) (basis rule anchors))) ∧
    t.scaleY = scaleOn rule (·.y) (basis rule anchors) ∧
      t.offsetY = Statistics.mean (shiftsOn (·.y) (basis rule anchors)) := by
  have nonempty : anchors.isEmpty = false := by
    cases anchors with
    | nil => exact absurd rfl some
    | cons => rfl
  revert kept
  simp only [estimate, nonempty, Bool.false_eq_true, if_false]
  split
  · intro kept
    cases kept
  · intro _
    refine ⟨⟨rfl, ?_⟩, rfl, ?_⟩
    · rw [shiftsOn_eq Prod.fst fun _ _ => rfl]
      rfl
    · rw [shiftsOn_eq Prod.snd fun _ _ => rfl]
      rfl

end Basis

section Exact
variable {K : Type} [ExactNumber K]

def OnLine (axis : Rect K → K) (s o : K) (m : AnchorMatch K) : Prop :=
  ∃ f, m.found = some f ∧ axis f = s * axis m.configured + o

variable {axis : Rect K → K} {s o : K} {ms : List (AnchorMatch K)}

theorem places_line (moved : ∀ m ∈ ms, OnLine axis s o m) :
    places axis ms = (configuredOn axis ms).map fun x => (x, s * x + o) := by
  rw [places, configuredOn, List.map_map]
  refine filterMap_found fun m known => ?_
  obtain ⟨f, found, line⟩ := moved m known
  exact ⟨f, found, congrArg (Prod.mk _) line⟩

theorem shiftsOn_line (moved : ∀ m ∈ ms, OnLine axis s o m) :
    shiftsOn axis ms = ms.map fun m => (s - 1) * axis m.configured + o := by
  refine filterMap_found fun m known => ?_
  obtain ⟨f, found, line⟩ := moved m known
  refine ⟨f, found, ?_⟩
  rw [line]
  ring

variable {rule : CalibrationRule K}

theorem scaleOn_line (moved : ∀ m ∈ ms, OnLine axis s o m) (positive : 0 < s)
    (parted : Statistics.Parted rule.minPairDistance (configuredOn axis ms)) :
    scaleOn rule axis ms =
      if Statistics.Wide rule.minPairDistance (configuredOn axis ms) then s else 1 := by
  rw [← Statistics.scale_line o positive parted, ← places_line moved, scaleOn]
  split
  · rfl
  · rename_i few
    match ms, few with
    | [], _ => rfl
    | [m], _ =>
      obtain ⟨f, found, _⟩ := moved m List.mem_cons_self
      simp only [places, List.filterMap_cons, List.filterMap_nil, found]
      rfl
    | _ :: _ :: _, few => simp at few

/-- How far anchors end up from where they were found: the scaling of their mean place and, where
no scale shows, of their own. -/
def residual (rule : CalibrationRule K) (axis : Rect K → K) (s : K) (ms : List (AnchorMatch K))
    (m : AnchorMatch K) : K :=
  (s - 1) * (Statistics.mean (configuredOn axis ms) -
    if Statistics.Wide rule.minPairDistance (configuredOn axis ms) then 0 else axis m.configured)

theorem moved_eq (moved : ∀ m ∈ ms, OnLine axis s o m) (nonempty : ms ≠ []) (positive : 0 < s)
    (parted : Statistics.Parted rule.minPairDistance (configuredOn axis ms))
    (m : AnchorMatch K) :
    axis m.configured * scaleOn rule axis ms + Statistics.mean (shiftsOn axis ms) =
      s * axis m.configured + o + residual rule axis s ms m := by
  have mean : Statistics.mean (shiftsOn axis ms) =
      (s - 1) * Statistics.mean (configuredOn axis ms) + o := by
    rw [shiftsOn_line moved]
    exact Statistics.mean_affine _ _ _ nonempty
  rw [mean, scaleOn_line moved positive parted, residual]
  split <;> ring

/-- The scale is 1, or it shows and the configured places have their mean at the origin. -/
def Centred (rule : CalibrationRule K) (axis : Rect K → K) (s : K) (ms : List (AnchorMatch K)) :
    Prop :=
  s = 1 ∨ Statistics.Wide rule.minPairDistance (configuredOn axis ms) ∧
    Statistics.mean (configuredOn axis ms) = 0

/-- Anchors that differ on an axis all come out right only if they are centred. -/
theorem residual_eq_zero_iff {all : List (AnchorMatch K)}
    (wide : Statistics.Wide rule.minPairDistance (configuredOn axis all))
    (parted : Statistics.Parted rule.minPairDistance (configuredOn axis all)) :
    (∀ m ∈ all, residual rule axis s ms m = 0) ↔ Centred rule axis s ms := by
  constructor
  · intro recovered
    by_cases one : s = 1
    · exact Or.inl one
    · have place (m) (known : m ∈ all) := (mul_eq_zero.mp (recovered m known)).resolve_left
        (sub_ne_zero.mpr one)
      obtain ⟨p, known, apart⟩ := wide
      obtain ⟨⟨m, first, hm⟩, ⟨n, second, hn⟩⟩ :=
        (Statistics.mem_pairs known).imp List.mem_map.mp List.mem_map.mp
      have left := place m first
      have right := place n second
      split at left
      · rename_i shows
        exact Or.inr ⟨shows, by rwa [sub_zero] at left⟩
      · rename_i narrow
        -- The ends of a wide pair would both lie at the mean.
        rw [if_neg narrow] at right
        rw [hm] at left
        rw [hn] at right
        refine absurd ?_ (parted p known apart)
        exact (sub_eq_zero.mp left).symm.trans (sub_eq_zero.mp right)
  · rintro (rfl | ⟨shows, mean⟩) m _
    · rw [residual, sub_self, zero_mul]
    · rw [residual, mean, if_pos shows, sub_zero, mul_zero]

structure Drift (K : Type) [ExactNumber K] where
  scaleX : K
  scaleY : K
  offsetX : K
  offsetY : K
  scaleX_pos : 0 < scaleX
  scaleY_pos : 0 < scaleY

def Drift.Shows (d : Drift K) (m : AnchorMatch K) : Prop :=
  OnLine (·.x) d.scaleX d.offsetX m ∧ OnLine (·.y) d.scaleY d.offsetY m

/-- Some pair of anchors is far enough apart on an axis to tell a scale, and no such pair has one
coordinate. -/
structure Spread (rule : CalibrationRule K) (axis : Rect K → K) (ms : List (AnchorMatch K)) :
    Prop where
  wide : Statistics.Wide rule.minPairDistance (configuredOn axis ms)
  parted : Statistics.Parted rule.minPairDistance (configuredOn axis ms)

theorem Spread.parted_of_sublist {all : List (AnchorMatch K)} (spread : Spread rule axis all)
    (part : ms.Sublist all) : Statistics.Parted rule.minPairDistance (configuredOn axis ms) :=
  fun p known => spread.parted p (Statistics.pairs_subset (part.map _) known)

theorem Spread.ne_nil (spread : Spread rule axis ms) : ms ≠ [] := by
  rintro rfl
  obtain ⟨p, known, _⟩ := spread.wide
  cases known

/-- A kept estimate of anchors that show one drift moves each of them to where it was found, but for
the residual, and so recovers all of them exactly if they are centred on both axes. -/
theorem estimate_recovers_iff (rule : CalibrationRule K) (anchors : List (AnchorMatch K))
    (warnings : List String) (d : Drift K) (shown : ∀ m ∈ matched anchors, d.Shows m)
    (spreadX : Spread rule (·.x) (matched anchors))
    (spreadY : Spread rule (·.y) (matched anchors))
    (kept : (estimate rule anchors warnings).fallbackReason = none) :
    let t := (estimate rule anchors warnings).transformation
    let b := basis rule anchors
    (∀ m ∈ matched anchors, ∀ f, m.found = some f →
      (t.apply m.configured).x = f.x + residual rule (·.x) d.scaleX b m ∧
        (t.apply m.configured).y = f.y + residual rule (·.y) d.scaleY b m) ∧
    ((∀ m ∈ matched anchors, ∀ f, m.found = some f →
      (t.apply m.configured).x = f.x ∧ (t.apply m.configured).y = f.y) ↔
        Centred rule (·.x) d.scaleX b ∧ Centred rule (·.y) d.scaleY b) := by
  intro t b
  have part : b.Sublist (matched anchors) := used_sublist ..
  have nonempty : b ≠ [] := used_ne_nil rule spreadX.ne_nil _
  obtain ⟨⟨scaleX, offsetX⟩, scaleY, offsetY⟩ := estimate_transformation spreadX.ne_nil kept
  have lineX (m) (known : m ∈ b) := (shown m (part.subset known)).1
  have lineY (m) (known : m ∈ b) := (shown m (part.subset known)).2
  have moved (m) (known : m ∈ matched anchors) (f) (found : m.found = some f) :
      (t.apply m.configured).x = f.x + residual rule (·.x) d.scaleX b m ∧
        (t.apply m.configured).y = f.y + residual rule (·.y) d.scaleY b m := by
    obtain ⟨⟨g, hg, x⟩, ⟨h, hh, y⟩⟩ := shown m known
    cases found.symm.trans hg
    cases found.symm.trans hh
    dsimp only at x y
    rw [x, y]
    constructor
    · rw [← moved_eq lineX nonempty d.scaleX_pos (spreadX.parted_of_sublist part) m,
        ← scaleX, ← offsetX]
      rfl
    · rw [← moved_eq lineY nonempty d.scaleY_pos (spreadY.parted_of_sublist part) m,
        ← scaleY, ← offsetY]
      rfl
  refine ⟨moved, ?_⟩
  rw [← residual_eq_zero_iff spreadX.wide spreadX.parted,
    ← residual_eq_zero_iff spreadY.wide spreadY.parted]
  constructor
  · intro recovered
    constructor <;> intro m known <;> obtain ⟨⟨f, found, _⟩, _⟩ := shown m known
    · have right := (recovered m known f found).1
      rw [(moved m known f found).1] at right
      exact add_eq_left.mp right
    · have right := (recovered m known f found).2
      rw [(moved m known f found).2] at right
      exact add_eq_left.mp right
  · rintro ⟨zeroX, zeroY⟩ m known f found
    obtain ⟨x, y⟩ := moved m known f found
    rw [x, y, zeroX m known, zeroY m known, add_zero, add_zero]
    exact ⟨rfl, rfl⟩

end Exact

instance : ExactNumber ℚ where
  root := Rat.sqrt

def doubled (name : String) (x y : ℚ) : AnchorMatch ℚ where
  name := name
  reference := name
  text := name
  similarity := 1
  isTextMatch := true
  quality := .excellent
  method := .exactRegion
  page := 1
  configured := ⟨x, y, 40, 10⟩
  found := some ⟨2 * x, 2 * y, 40, 10⟩
  isOutlier := false

def pair : List (AnchorMatch ℚ) := [doubled "Invoice" 0 0, doubled "Total" 60 80]

def doubling : Drift ℚ where
  scaleX := 2
  scaleY := 2
  offsetX := 0
  offsetY := 0
  scaleX_pos := by decide +kernel
  scaleY_pos := by decide +kernel

theorem pair_shown : ∀ m ∈ matched pair, doubling.Shows m := by
  intro m known
  have either : m = doubled "Invoice" 0 0 ∨ m = doubled "Total" 60 80 := by
    simpa only [pair, List.mem_cons, List.not_mem_nil, or_false] using (List.mem_filter.mp known).1
  rcases either with rfl | rfl <;> exact ⟨⟨_, rfl, by decide +kernel⟩, ⟨_, rfl, by decide +kernel⟩⟩

theorem pair_spreadX : Spread .standard (·.x) (matched pair) :=
  ⟨by decide +kernel, by unfold Statistics.Parted; decide +kernel⟩

theorem pair_spreadY : Spread .standard (·.y) (matched pair) :=
  ⟨by decide +kernel, by unfold Statistics.Parted; decide +kernel⟩

theorem pair_kept : (estimate .standard pair []).fallbackReason = none := by decide +kernel

theorem estimate_recovers_iff_pair :
    (∀ m ∈ matched pair, doubling.Shows m) ∧ Spread .standard (·.x) (matched pair) ∧
      Spread .standard (·.y) (matched pair) ∧
      (estimate .standard pair []).fallbackReason = none ∧
      ((∀ m ∈ matched pair, ∀ f, m.found = some f →
        ((estimate .standard pair []).transformation.apply m.configured).x = f.x ∧
          ((estimate .standard pair []).transformation.apply m.configured).y = f.y) ↔
        Centred .standard (·.x) 2 (basis .standard pair) ∧
          Centred .standard (·.y) 2 (basis .standard pair)) :=
  ⟨pair_shown, pair_spreadX, pair_spreadY, pair_kept,
    (estimate_recovers_iff .standard pair [] doubling pair_shown pair_spreadX pair_spreadY
      pair_kept).2⟩

/-- A kept estimate need not recover the drift it rests on: the first anchor of the pair ends up
30 units to the right of where it was found. -/
theorem drift_not_recovered :
    ¬ ∀ (rule : CalibrationRule ℚ) (anchors : List (AnchorMatch ℚ)) (warnings : List String)
      (d : Drift ℚ), (∀ m ∈ matched anchors, d.Shows m) →
      Spread rule (·.x) (matched anchors) → Spread rule (·.y) (matched anchors) →
      (estimate rule anchors warnings).fallbackReason = none →
      ∀ m ∈ matched anchors, ∀ f, m.found = some f →
        ((estimate rule anchors warnings).transformation.apply m.configured).x = f.x ∧
          ((estimate rule anchors warnings).transformation.apply m.configured).y = f.y := by
  intro recovered
  have first := (recovered .standard pair [] doubling pair_shown pair_spreadX pair_spreadY pair_kept
    (doubled "Invoice" 0 0) List.mem_cons_self _ rfl).1
  revert first
  decide +kernel

end Docket.CalibrationReport
