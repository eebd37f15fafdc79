import Mathlib
import Docket.Proofs.Calibration.Recovery

/-! Calibration takes its anchors in any order. Means, spreads and the median of a symmetric ratio
depend on the values alone, and whether an anchor strays is told by its offset and all offsets. So
the marks that an estimate sets do not change the next one. -/
namespace Docket

namespace Statistics

section Any
variable {α : Type} [Scalar α]

/-- Whether an offset lies further out than the threshold among others. -/
def isFar (threshold : α) (offsets : List (α × α)) (o : α × α) : Bool :=
  let xs := offsets.map Prod.fst
  let ys := offsets.map Prod.snd
  3 ≤ offsets.length && (threshold < score (mean xs) (deviation xs) o.1 ||
    threshold < score (mean ys) (deviation ys) o.2)

theorem outliers_eq (threshold : α) (offsets : List (α × α)) :
    outliers threshold offsets = offsets.map (isFar threshold offsets) := by
  unfold outliers isFar
  split
  · rename_i few
    simp [Nat.not_le.mpr few]
  · rename_i several
    simp [Nat.not_lt.mp several]

theorem pairs_perm {β γ : Type} {f : β × β → Option γ} (symm : ∀ a b, f (a, b) = f (b, a))
    {xs ys : List β} (perm : xs.Perm ys) :
    ((pairs xs).filterMap f).Perm ((pairs ys).filterMap f) := by
  induction perm with
  | nil => exact .refl _
  | cons x perm ih =>
    simp only [pairs, List.filterMap_append]
    exact ((perm.map _).filterMap f).append ih
  | swap x y rest =>
    simp only [pairs, List.map_cons, List.cons_append, List.filterMap_append, List.filterMap_cons,
      symm x y]
    -- behind the pair of the two, their pairs with the rest come in the other order
    have others : ((rest.map (y, ·)).filterMap f ++ ((rest.map (x, ·)).filterMap f ++
        (pairs rest).filterMap f)).Perm ((rest.map (x, ·)).filterMap f ++
          ((rest.map (y, ·)).filterMap f ++ (pairs rest).filterMap f)) := by
      rw [← List.append_assoc, ← List.append_assoc]
      exact List.perm_append_comm.append_right _
    split
    · exact others
    · exact others.cons _
  | trans _ _ first second => exact first.trans second

end Any

variable {K : Type} [ExactNumber K]

theorem mean_perm {xs ys : List K} (perm : xs.Perm ys) : mean xs = mean ys := by
  rw [mean_eq, mean_eq, perm.sum_eq, perm.length_eq]

theorem deviation_perm {xs ys : List K} (perm : xs.Perm ys) : deviation xs = deviation ys := by
  have squares : (xs.map fun x => Scalar.square (x - mean xs)).sum =
      (ys.map fun y => Scalar.square (y - mean ys)).sum := by
    rw [mean_perm perm]
    exact (perm.map _).sum_eq
  simp only [deviation, Exact.sum_eq, squares, count, perm.length_eq, perm.isEmpty_eq]

theorem ascending_perm_eq {xs ys : List K} (perm : xs.Perm ys) : ascending xs = ascending ys :=
  ((ascending_perm xs).trans (perm.trans (ascending_perm ys).symm)).eq_of_pairwise
    (fun _ _ _ _ => le_antisymm) (ascending_ascends xs) (ascending_ascends ys)

theorem scale_perm (minDistance : K) {places places' : List (K × K)}
    (perm : places.Perm places') : scale minDistance places = scale minDistance places' := by
  have symm (a b : K × K) : distanceRatio? minDistance a b = distanceRatio? minDistance b a := by
    rw [distanceRatio?_eq, distanceRatio?_eq, abs_sub_comm b.1, abs_sub_comm b.2]
  have ratios := pairs_perm (f := fun p => distanceRatio? minDistance p.1 p.2) symm perm
  rw [scale, scale, median, median]
  rw [ascending_perm_eq ratios]

theorem distortion_perm {offsets offsets' : List (K × K)} (perm : offsets.Perm offsets') :
    distortion offsets = distortion offsets' := by
  simp only [distortion, deviation_perm (perm.map Prod.fst), deviation_perm (perm.map Prod.snd)]

theorem isFar_perm (threshold : K) {offsets offsets' : List (K × K)}
    (perm : offsets.Perm offsets') : isFar threshold offsets = isFar threshold offsets' := by
  funext o
  simp only [isFar, perm.length_eq, mean_perm (perm.map Prod.fst), mean_perm (perm.map Prod.snd),
    deviation_perm (perm.map Prod.fst), deviation_perm (perm.map Prod.snd)]

end Statistics

namespace CalibrationReport

section Any
variable {α : Type}

/-- A located anchor without the mark of an outlier. -/
def unmarked (m : AnchorMatch α) : AnchorMatch α := { m with isOutlier := false }

/-- The same anchors in any order, whatever marks they carry. -/
def Alike (ms ms' : List (AnchorMatch α)) : Prop := (ms'.map unmarked).Perm (ms.map unmarked)

namespace Alike

variable {ms ms' : List (AnchorMatch α)}

theorem of_perm (perm : ms'.Perm ms) : Alike ms ms' := perm.map unmarked

theorem of_marked (ms : List (AnchorMatch α)) (flag : AnchorMatch α → Bool) :
    Alike ms (ms.map fun m => { m with isOutlier := flag m }) := by
  rw [Alike, List.map_map]
  exact .refl _

variable (alike : Alike ms ms')
include alike

theorem length_eq : ms'.length = ms.length := by simpa using List.Perm.length_eq alike

theorem filter {keep : AnchorMatch α → Bool} (same : ∀ m, keep (unmarked m) = keep m) :
    Alike (ms.filter keep) (ms'.filter keep) := by
  have told (ms : List (AnchorMatch α)) :
      (ms.filter keep).map unmarked = (ms.map unmarked).filter keep := by
    rw [List.filter_map, List.filter_congr fun m _ => (same m).symm]
    rfl
  have perm := List.Perm.filter keep alike
  rwa [← told, ← told] at perm

theorem filterMap {β : Type} {f : AnchorMatch α → Option β} (same : ∀ m, f (unmarked m) = f m) :
    (ms'.filterMap f).Perm (ms.filterMap f) := by
  have told (ms : List (AnchorMatch α)) : (ms.map unmarked).filterMap f = ms.filterMap f := by
    rw [List.filterMap_map]
    exact List.filterMap_congr fun m _ => same m
  have perm := List.Perm.filterMap f alike
  rwa [told, told] at perm

end Alike

theorem zip_filterMap_eq (drop : Bool → Bool) (flag : AnchorMatch α → Bool)
    (ms : List (AnchorMatch α)) :
    ((ms.zip (ms.map flag)).filterMap fun (m, flag) => if drop flag then none else some m) =
      ms.filter fun m => !drop (flag m) := by
  rw [← List.map_prod_left_eq_zip, List.filterMap_map, ← List.filterMap_eq_filter]
  refine List.filterMap_congr fun m _ => ?_
  cases dropped : drop (flag m) <;> simp [dropped, Option.guard]

theorem mark_eq (flag : AnchorMatch α → Bool) (ms : List (AnchorMatch α)) :
    mark ms ((ms.filter counts).map flag) =
      ms.map fun m => { m with isOutlier := m.isOutlier || (counts m && flag m) } := by
  induction ms with
  | nil => rfl
  | cons m ms ih =>
    cases counting : counts m with
    | true =>
      simp only [List.filter_cons_of_pos counting, List.map_cons, mark, counting, if_true, ih,
        Bool.true_and]
    | false =>
      have skipped : ¬ counts m = true := by simp [counting]
      simp only [List.filter_cons_of_neg skipped, List.map_cons, mark, counting, ih,
        Bool.false_and, Bool.or_false, Bool.false_eq_true, if_false]

variable [Scalar α]

/-- Whether a located anchor counts and lies far out among others. -/
def strays (rule : CalibrationRule α) (ms : List (AnchorMatch α)) (m : AnchorMatch α) : Bool :=
  counts m && m.offset.any
    (Statistics.isFar rule.outlierThreshold ((matched ms).filterMap (·.offset)))

/-- Whether an anchor counts and is not left out as an outlier. -/
def stays (rule : CalibrationRule α) (ms : List (AnchorMatch α)) (m : AnchorMatch α) : Bool :=
  counts m && !(rule.excludeOutliers && strays rule ms m)

theorem offset_of_counts {m : AnchorMatch α} (counting : counts m = true) :
    ∃ o, m.offset = some o := by
  have isSome : m.found.isSome = true := (Bool.and_eq_true_iff.mp counting).2
  obtain ⟨f, found⟩ := Option.isSome_iff_exists.mp isSome
  exact ⟨_, by rw [AnchorMatch.offset, found]; rfl⟩

/-- The flags of the counting anchors, each told by its anchor. -/
theorem flags_eq (rule : CalibrationRule α) (ms : List (AnchorMatch α)) :
    Statistics.outliers rule.outlierThreshold ((matched ms).filterMap (·.offset)) =
      (matched ms).map (strays rule ms) := by
  rw [Statistics.outliers_eq, List.map_filterMap, ← List.filterMap_eq_map]
  refine List.filterMap_congr fun m known => ?_
  have counting : counts m = true := (List.mem_filter.mp known).2
  obtain ⟨o, offset⟩ := offset_of_counts counting
  simp [strays, counting, offset]

theorem basis_eq (rule : CalibrationRule α) (ms : List (AnchorMatch α)) :
    basis rule ms =
      if (ms.filter (stays rule ms)).isEmpty then matched ms else ms.filter (stays rule ms) := by
  have kept : (((matched ms).zip ((matched ms).map (strays rule ms))).filterMap fun (m, flag) =>
      if rule.excludeOutliers && flag then none else some m) = ms.filter (stays rule ms) := by
    rw [zip_filterMap_eq (rule.excludeOutliers && ·), matched, List.filter_filter]
    exact List.filter_congr fun m _ => Bool.and_comm _ _
  rw [basis, flags_eq, used]
  simp only [kept]

/-- An estimate marks the anchors that stray and changes nothing else of them. -/
theorem anchors_estimate (rule : CalibrationRule α) (ms : List (AnchorMatch α))
    (warnings : List String) :
    (estimate rule ms warnings).anchors =
      ms.map fun m => { m with isOutlier := m.isOutlier || strays rule ms m } := by
  have marked : mark ms (Statistics.outliers rule.outlierThreshold
      ((matched ms).filterMap (·.offset))) =
        ms.map fun m => { m with isOutlier := m.isOutlier || strays rule ms m } := by
    rw [flags_eq, matched, mark_eq]
    refine List.map_congr_left fun m _ => ?_
    rw [strays, ← Bool.and_assoc, Bool.and_self]
  unfold estimate
  split
  · rename_i none
    rw [List.isEmpty_iff.mp none]
    rfl
  · dsimp only
    split <;> exact marked

end Any

section Exact
variable {K : Type} [ExactNumber K] {ms ms' : List (AnchorMatch K)}

theorem Alike.offsets (alike : Alike ms ms') :
    ((matched ms').filterMap (·.offset)).Perm ((matched ms).filterMap (·.offset)) :=
  (alike.filter fun _ => rfl).filterMap fun _ => rfl

theorem Alike.strays_eq (rule : CalibrationRule K) (alike : Alike ms ms') :
    strays rule ms' = strays rule ms := by
  funext m
  rw [strays, strays, Statistics.isFar_perm _ alike.offsets]

/-- The anchors that an estimate rests on do not depend on the order and the marks either. -/
theorem Alike.basis (rule : CalibrationRule K) (alike : Alike ms ms') :
    Alike (basis rule ms) (CalibrationReport.basis rule ms') := by
  have stay : stays rule ms' = stays rule ms := by
    funext m
    rw [stays, stays, alike.strays_eq]
  have kept : Alike (ms.filter (stays rule ms)) (ms'.filter (stays rule ms)) :=
    alike.filter fun _ => rfl
  have none : (ms'.filter (stays rule ms)).isEmpty = (ms.filter (stays rule ms)).isEmpty := by
    rw [← List.isEmpty_map, List.Perm.isEmpty_eq kept, List.isEmpty_map]
  rw [basis_eq, basis_eq, stay, none]
  split
  · exact alike.filter fun _ => rfl
  · exact kept

theorem Alike.scaleOn_eq (rule : CalibrationRule K) (axis : Rect K → K) (alike : Alike ms ms') :
    scaleOn rule axis ms' = scaleOn rule axis ms := by
  have perm : (places axis ms').Perm (places axis ms) := alike.filterMap fun _ => rfl
  rw [scaleOn, scaleOn, alike.length_eq, Statistics.scale_perm _ perm]

/-- Reports that say the same of the document, up to their anchors and warnings. -/
structure Agrees (r r' : CalibrationReport K) : Prop where
  transformation : r'.transformation = r.transformation
  extractionRate : r'.extractionRate = r.extractionRate
  matchRate : r'.matchRate = r.matchRate
  meanSimilarity : r'.meanSimilarity = r.meanSimilarity
  rawConfidence : r'.rawConfidence = r.rawConfidence
  fallbackReason : r'.fallbackReason = r.fallbackReason

theorem estimate_agrees (rule : CalibrationRule K) (alike : Alike ms ms')
    (warnings warnings' : List String) :
    Agrees (estimate rule ms warnings) (estimate rule ms' warnings') := by
  have total := alike.length_eq
  have counted : (ms'.filter counts).length = (ms.filter counts).length :=
    (alike.filter fun _ => rfl).length_eq
  have texts : ((ms'.filter gaveText).map (·.similarity)).Perm
      ((ms.filter gaveText).map (·.similarity)) := by
    rw [← List.filterMap_eq_map]
    exact (alike.filter fun _ => rfl).filterMap fun _ => rfl
  have onBasis := alike.basis rule
  have shifts : ((basis rule ms').filterMap (·.offset)).Perm
      ((basis rule ms).filterMap (·.offset)) := onBasis.filterMap fun _ => rfl
  by_cases none : ms = []
  · have none' : ms' = [] := List.eq_nil_of_length_eq_zero (by rw [total, none]; rfl)
    subst none none'
    exact ⟨rfl, rfl, rfl, rfl, rfl, rfl⟩
  have some : ms.isEmpty = false := by simpa using none
  have some' : ms'.isEmpty = false := by
    rw [← List.isEmpty_map, List.Perm.isEmpty_eq alike, List.isEmpty_map, some]
  have similarity := Statistics.mean_perm texts
  have shiftX := Statistics.mean_perm (shifts.map Prod.fst)
  have shiftY := Statistics.mean_perm (shifts.map Prod.snd)
  have distortion := Statistics.distortion_perm alike.offsets
  have scaleX := onBasis.scaleOn_eq rule (·.x)
  have scaleY := onBasis.scaleOn_eq rule (·.y)
  unfold matched at distortion
  unfold basis matched at shiftX shiftY scaleX scaleY
  simp only [estimate, some, some', Bool.false_eq_true, if_false, List.length_map, total, counted,
    texts.length_eq, similarity, shiftX, shiftY, distortion, scaleX, scaleY]
  split <;> exact ⟨rfl, rfl, rfl, rfl, rfl, rfl⟩

/-- Anchors in another order are given the same estimate, and an estimate from its own marked
anchors is the same again. -/
theorem estimate_reordered (rule : CalibrationRule K) (reordered : ms'.Perm ms)
    (warnings warnings' warnings'' : List String) :
    let r := estimate rule ms warnings
    let r' := estimate rule ms' warnings'
    let again := estimate rule r.anchors warnings''
    Agrees r r' ∧
      r.anchors = ms.map (fun m => { m with isOutlier := m.isOutlier || strays rule ms m }) ∧
      r'.anchors = ms'.map (fun m => { m with isOutlier := m.isOutlier || strays rule ms m }) ∧
      again.transformation = r.transformation ∧ again.anchors = r.anchors := by
  intro r r' again
  have alike : Alike ms ms' := .of_perm reordered
  have marks : r.anchors =
      ms.map fun m => { m with isOutlier := m.isOutlier || strays rule ms m } :=
    anchors_estimate rule ms warnings
  have marked : Alike ms r.anchors := by
    rw [marks]
    exact .of_marked ms _
  refine ⟨estimate_agrees rule alike warnings warnings', marks, ?_,
    (estimate_agrees rule marked warnings warnings'').transformation, ?_⟩
  · rw [anchors_estimate, alike.strays_eq]
  · have settled (m : AnchorMatch K) : strays rule ms { m with
        isOutlier := m.isOutlier || strays rule ms m } = strays rule ms m := rfl
    rw [anchors_estimate, marked.strays_eq, marks, List.map_map]
    refine List.map_congr_left fun m _ => ?_
    simp [Function.comp, settled]

end Exact

/-- An anchor a hundred to the right of where it was set, which strays from nine others. -/
def shoved : AnchorMatch ℚ := { doubled "Total" 0 0 with found := some ⟨100, 0, 40, 10⟩ }

def mostlySettled : List (AnchorMatch ℚ) := shoved :: List.replicate 9 (doubled "Invoice" 0 0)

theorem estimate_reordered_mostlySettled :
    let r := estimate .standard mostlySettled []
    let r' := estimate .standard mostlySettled.reverse []
    mostlySettled.reverse.Perm mostlySettled ∧ strays .standard mostlySettled shoved = true ∧
      strays .standard mostlySettled (doubled "Invoice" 0 0) = false ∧ Agrees r r' ∧
      (estimate .standard r.anchors []).transformation = r.transformation := by
  have reordered := List.reverse_perm mostlySettled
  obtain ⟨agrees, -, -, again, -⟩ := estimate_reordered .standard reordered [] [] []
  exact ⟨reordered, by decide +kernel, by decide +kernel, agrees, again⟩

end CalibrationReport
end Docket
