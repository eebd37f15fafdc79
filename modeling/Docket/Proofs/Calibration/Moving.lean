import Mathlib
import Docket.Extraction.Result
import Docket.Proofs.Calibration.Recovery
import Docket.Proofs.Layout.Drifting

/-! What becomes of a calibration when everything on the page has moved. Means move along, spreads
and distances do not, so the estimate differs in its offsets alone and every field follows its
words. -/
namespace Docket

namespace Statistics

variable {K : Type} [ExactNumber K]

theorem mean_add (c : K) {xs : List K} (nonempty : xs ≠ []) :
    mean (xs.map (· + c)) = mean xs + c := by
  have affine := mean_affine id 1 c nonempty
  simpa only [id, one_mul, List.map_id_fun] using affine

theorem deviation_add (c : K) (xs : List K) : deviation (xs.map (· + c)) = deviation xs := by
  cases xs with
  | nil => rfl
  | cons x xs =>
    have nonempty : x :: xs ≠ [] := List.cons_ne_nil x xs
    have square (y : K) : Scalar.square (y + c - (mean (x :: xs) + c)) =
        Scalar.square (y - mean (x :: xs)) := by rw [add_sub_add_right_eq_sub]
    have count : Statistics.count ((x :: xs).map (· + c)) = Statistics.count (x :: xs) := by
      rw [Statistics.count, List.length_map, Statistics.count]
    unfold deviation
    rw [count, mean_add c nonempty]
    simp only [List.map_map, Function.comp_def, square, List.isEmpty_map]

/-- An offset after a move. -/
def along (v : Move K) (offset : K × K) : K × K := (offset.1 + v.right, offset.2 + v.down)

theorem map_fst_along (v : Move K) (offsets : List (K × K)) :
    (offsets.map (along v)).map Prod.fst = (offsets.map Prod.fst).map (· + v.right) := by
  rw [List.map_map, List.map_map]
  rfl

theorem map_snd_along (v : Move K) (offsets : List (K × K)) :
    (offsets.map (along v)).map Prod.snd = (offsets.map Prod.snd).map (· + v.down) := by
  rw [List.map_map, List.map_map]
  rfl

theorem distortion_along (v : Move K) (offsets : List (K × K)) :
    distortion (offsets.map (along v)) = distortion offsets := by
  simp only [distortion, map_fst_along, map_snd_along, deviation_add]

theorem score_add (c mean deviation x : K) :
    score (mean + c) deviation (x + c) = score mean deviation x := by
  rw [score, score, add_sub_add_right_eq_sub]

theorem outliers_along (threshold : K) (v : Move K) (offsets : List (K × K)) :
    outliers threshold (offsets.map (along v)) = outliers threshold offsets := by
  unfold outliers
  rw [List.length_map]
  split
  · rw [List.map_map]
    rfl
  · rename_i several
    have nonempty : offsets ≠ [] := by
      rintro rfl
      simp at several
    simp only [map_fst_along, map_snd_along, deviation_add]
    rw [mean_add _ (by simpa using nonempty), mean_add _ (by simpa using nonempty), List.map_map]
    refine List.map_congr_left fun o _ => ?_
    simp only [Function.comp, along, score_add]

theorem scale_add (minDistance c : K) (places : List (K × K)) :
    scale minDistance (places.map (Prod.map id (· + c))) = scale minDistance places := by
  have ratio (p : (K × K) × (K × K)) : distanceRatio? minDistance (Prod.map id (· + c) p.1)
      (Prod.map id (· + c) p.2) = distanceRatio? minDistance p.1 p.2 := by
    simp only [distanceRatio?_eq, Prod.map, id, add_sub_add_right_eq_sub]
  unfold scale
  rw [pairs_map, List.filterMap_map]
  simp only [Function.comp_def, Prod.map_fst, Prod.map_snd, ratio]

end Statistics

variable {K : Type} [ExactNumber K]

/-- A located anchor that was found elsewhere. -/
def AnchorMatch.moved (v : Move K) (m : AnchorMatch K) : AnchorMatch K :=
  { m with found := m.found.map (·.moved v) }

theorem AnchorMatch.offset_moved (v : Move K) (m : AnchorMatch K) :
    (m.moved v).offset = m.offset.map (Statistics.along v) := by
  have shift (f : Rect K) : ((f.moved v).x - m.configured.x, (f.moved v).y - m.configured.y) =
      Statistics.along v (f.x - m.configured.x, f.y - m.configured.y) := by
    simp only [Rect.moved, Statistics.along, add_sub_right_comm]
  simp only [offset, moved, Option.map_map, Function.comp_def, shift]

/-- Places further on. -/
def Transformation.moved (v : Move K) (t : Transformation K) : Transformation K :=
  { t with offsetX := t.offsetX + v.right, offsetY := t.offsetY + v.down }

theorem Transformation.apply_moved (v : Move K) (t : Transformation K) (r : Rect K) :
    (t.moved v).apply r = (t.apply r).moved v := by
  simp only [apply, moved, Rect.moved, add_assoc]

namespace CalibrationReport

theorem counts_moved (v : Move K) (m : AnchorMatch K) : counts (m.moved v) = counts m := by
  simp only [counts, AnchorMatch.moved, Option.isSome_map]

theorem filter_moved (v : Move K) (ms : List (AnchorMatch K)) (keep : AnchorMatch K → Bool)
    (same : ∀ m : AnchorMatch K, keep (m.moved v) = keep m) :
    (ms.map (·.moved v)).filter keep = (ms.filter keep).map (·.moved v) := by
  rw [List.filter_map]
  congr 1
  exact List.filter_congr fun m _ => same m

theorem offsets_moved (v : Move K) (ms : List (AnchorMatch K)) :
    (ms.map (·.moved v)).filterMap (·.offset) =
      (ms.filterMap (·.offset)).map (Statistics.along v) := by
  rw [List.filterMap_map, List.map_filterMap]
  exact List.filterMap_congr fun m _ => m.offset_moved v

theorem zip_filterMap_moved (v : Move K) (ms : List (AnchorMatch K)) (flags : List Bool)
    (drop : Bool → Bool) :
    ((ms.map (·.moved v)).zip flags).filterMap
        (fun (m, flag) => if drop flag then none else some m) =
      ((ms.zip flags).filterMap fun (m, flag) => if drop flag then none else some m).map
        (·.moved v) := by
  rw [List.zip_map_left, List.filterMap_map, List.map_filterMap]
  refine List.filterMap_congr fun (m, flag) _ => ?_
  cases dropped : drop flag <;> simp [dropped]

theorem used_moved (v : Move K) (rule : CalibrationRule K) (ms : List (AnchorMatch K))
    (flags : List Bool) :
    used rule (ms.map (·.moved v)) flags = (used rule ms flags).map (·.moved v) := by
  have kept := zip_filterMap_moved v ms flags (rule.excludeOutliers && ·)
  unfold used
  dsimp only at kept ⊢
  rw [kept, List.isEmpty_map]
  split <;> rfl

theorem flagged_moved (v : Move K) (ms : List (AnchorMatch K)) (flags : List Bool) :
    (((ms.map (·.moved v)).zip flags).filterMap
        fun (m, flag) => if flag then some m else none).map outlierWarning =
      ((ms.zip flags).filterMap fun (m, flag) => if flag then some m else none).map
        outlierWarning := by
  rw [List.zip_map_left, List.filterMap_map, List.map_filterMap, List.map_filterMap]
  refine List.filterMap_congr fun (m, flag) _ => ?_
  cases flag <;> rfl

theorem mark_moved (v : Move K) (ms : List (AnchorMatch K)) (flags : List Bool) :
    mark (ms.map (·.moved v)) flags = (mark ms flags).map (·.moved v) := by
  induction ms generalizing flags with
  | nil => rfl
  | cons m ms ih =>
    simp only [List.map_cons, mark, counts_moved]
    split
    · cases flags with
      | nil => rfl
      | cons flag flags =>
        dsimp only
        rw [ih]
        rfl
    · rw [List.map_cons, ih]

theorem placesX_moved (v : Move K) (ms : List (AnchorMatch K)) :
    places (·.x) (ms.map (·.moved v)) = (places (·.x) ms).map (Prod.map id (· + v.right)) := by
  simp only [places, List.filterMap_map, List.map_filterMap, Function.comp_def, AnchorMatch.moved,
    Option.map_map]
  rfl

theorem placesY_moved (v : Move K) (ms : List (AnchorMatch K)) :
    places (·.y) (ms.map (·.moved v)) = (places (·.y) ms).map (Prod.map id (· + v.down)) := by
  simp only [places, List.filterMap_map, List.map_filterMap, Function.comp_def, AnchorMatch.moved,
    Option.map_map]
  rfl

theorem scaleOnX_moved (v : Move K) (rule : CalibrationRule K) (ms : List (AnchorMatch K)) :
    scaleOn rule (·.x) (ms.map (·.moved v)) = scaleOn rule (·.x) ms := by
  rw [scaleOn, scaleOn, List.length_map, placesX_moved, Statistics.scale_add]

theorem scaleOnY_moved (v : Move K) (rule : CalibrationRule K) (ms : List (AnchorMatch K)) :
    scaleOn rule (·.y) (ms.map (·.moved v)) = scaleOn rule (·.y) ms := by
  rw [scaleOn, scaleOn, List.length_map, placesY_moved, Statistics.scale_add]

theorem offsets_ne_nil {ms : List (AnchorMatch K)} (some : ms ≠ [])
    (counting : ∀ m ∈ ms, counts m = true) : ms.filterMap (·.offset) ≠ [] := by
  obtain ⟨m, rest, rfl⟩ := List.exists_cons_of_ne_nil some
  have isSome : m.found.isSome = true := (Bool.and_eq_true_iff.mp (counting m List.mem_cons_self)).2
  obtain ⟨f, found⟩ := Option.isSome_iff_exists.mp isSome
  have offset : m.offset = Option.some (f.x - m.configured.x, f.y - m.configured.y) := by
    rw [AnchorMatch.offset, found]
    rfl
  rw [List.filterMap_cons_some offset]
  exact List.cons_ne_nil _ _

/-- A report on a document that was moved. -/
def moved (v : Move K) (r : CalibrationReport K) : CalibrationReport K :=
  { r with
    transformation :=
      if r.fallbackReason = none then r.transformation.moved v else r.transformation
    anchors := r.anchors.map (·.moved v) }

/-- The places of anchors count only by their distances and, in the offsets, by their mean. -/
theorem estimate_moved (v : Move K) (rule : CalibrationRule K) {anchors : List (AnchorMatch K)}
    (some : anchors ≠ []) (warnings : List String) :
    estimate rule (anchors.map (·.moved v)) warnings =
      (estimate rule anchors warnings).moved v := by
  have nonempty : anchors.isEmpty = false := by simpa using some
  have texts : (anchors.map (·.moved v)).filter gaveText =
      (anchors.filter gaveText).map (·.moved v) := filter_moved v anchors gaveText fun _ => rfl
  have similarities (ms : List (AnchorMatch K)) :
      (ms.map (·.moved v)).map (·.similarity) = ms.map (·.similarity) := by
    rw [List.map_map]
    rfl
  have shifts (flags : List Bool) (met : anchors.filter counts ≠ []) :
      (used rule (anchors.filter counts) flags).filterMap (·.offset) ≠ [] :=
    offsets_ne_nil (used_ne_nil rule met flags) fun m known =>
      (List.mem_filter.mp ((used_sublist rule _ flags).subset known)).2
  unfold estimate
  rw [List.isEmpty_map, nonempty]
  simp only [Bool.false_eq_true, if_false, List.length_map, texts, similarities,
    filter_moved v anchors counts (counts_moved v), offsets_moved, Statistics.outliers_along,
    used_moved, flagged_moved, mark_moved, Statistics.distortion_along]
  split
  · rfl
  · rename_i kept
    have met : anchors.filter counts ≠ [] := by
      intro nil
      rw [nil] at kept
      cases kept
    rw [Statistics.map_fst_along, Statistics.map_snd_along,
      Statistics.mean_add _ (by simpa using shifts _ met),
      Statistics.mean_add _ (by simpa using shifts _ met), scaleOnX_moved, scaleOnY_moved]
    rfl

theorem estimate_warnings (rule : CalibrationRule K) (anchors : List (AnchorMatch K))
    (warnings warnings' : List String) :
    (estimate rule anchors warnings').transformation =
        (estimate rule anchors warnings).transformation ∧
      (estimate rule anchors warnings').fallbackReason =
        (estimate rule anchors warnings).fallbackReason := by
  unfold estimate
  split
  · exact ⟨rfl, rfl⟩
  · dsimp only
    split <;> exact ⟨rfl, rfl⟩

/-- Where a field is looked for, how many words there are and which, on a page that has them. -/
theorem readField_words (gather : RegionRule K) {pages : PageStore K} (t : Transformation K)
    (f : Field K) {ws : List (Word K)} (there : pages.words? f.page = some ws) :
    (Extraction.readField gather pages t f).detail.effective = t.apply f.rect ∧
      (Extraction.readField gather pages t f).detail.wordCount =
        (Region.ordered gather (t.apply f.rect) ws).length := by
  simp only [Extraction.readField, there]
  split
  · exact ⟨rfl, rfl⟩
  · split <;> exact ⟨rfl, rfl⟩

/-- When the anchors and the words of a field's page have moved alike, the estimate differs only in
its offsets, by the move, and the field is read from the same words. -/
theorem estimate_follows_move (rule : CalibrationRule K) (anchors : List (AnchorMatch K))
    (some : anchors ≠ []) (warnings : List String) (v : Move K) :
    let r := estimate rule anchors warnings
    estimate rule (anchors.map (·.moved v)) warnings =
      { r with
        anchors := r.anchors.map (·.moved v)
        transformation :=
          if r.fallbackReason = none then
            { r.transformation with
              offsetX := r.transformation.offsetX + v.right
              offsetY := r.transformation.offsetY + v.down }
          else r.transformation } ∧
    (r.fallbackReason = none →
      ∀ (warnings' : List String) (gather : RegionRule K) (f : Field K) (pages pages' : PageStore K)
        (ws : List (Word K)), pages.words? f.page = Option.some ws →
        pages'.words? f.page = Option.some (ws.map (·.moved v)) →
        let r' := estimate rule (anchors.map (·.moved v)) warnings'
        let area := (Extraction.readField gather pages r.transformation f).detail
        let area' := (Extraction.readField gather pages' r'.transformation f).detail
        area'.effective = area.effective.moved v ∧
          Region.kept gather area'.effective (ws.map (·.moved v)) =
            (Region.kept gather area.effective ws).map (·.moved v) ∧
          area'.wordCount = area.wordCount) := by
  intro r
  refine ⟨estimate_moved v rule some warnings, ?_⟩
  intro kept warnings' gather f pages pages' ws there there' r' area area'
  have moved : r'.transformation = r.transformation.moved v := by
    rw [show r'.transformation = _ from (estimate_warnings rule _ warnings warnings').1,
      estimate_moved v rule some warnings]
    exact if_pos kept
  obtain ⟨effective, count⟩ := readField_words gather r.transformation f there
  obtain ⟨effective', count'⟩ := readField_words gather r'.transformation f there'
  have follows : area'.effective = area.effective.moved v := by
    rw [show area'.effective = _ from effective', show area.effective = _ from effective, moved,
      Transformation.apply_moved]
  refine ⟨follows, ?_, ?_⟩
  · rw [follows, Region.kept_moved]
  · rw [show area'.wordCount = _ from count', show area.wordCount = _ from count, moved,
      Transformation.apply_moved, (Region.ordered_moved v gather _ ws).length_eq, List.length_map]

/-- The place of an amount beside the second anchor. -/
def amount : Field ℚ := ⟨"Total", 1, ⟨60, 80, 40, 10⟩, .number, 0⟩

def amountWords : List (Word ℚ) := [⟨"12.50", ⟨150, 200, 40, 10⟩⟩]

def amountPage (ws : List (Word ℚ)) : PageStore ℚ := ⟨[(1, ws)], 1⟩

theorem amount_kept :
    Region.kept .standard ((estimate .standard pair []).transformation.apply amount.rect)
      amountWords = amountWords := by
  refine List.filter_eq_self.mpr ?_
  decide +kernel

theorem estimate_follows_move_pair :
    let v : Move ℚ := ⟨5, -3⟩
    let t := (estimate .standard (pair.map (·.moved v)) []).transformation
    pair ≠ [] ∧ (estimate .standard pair []).fallbackReason = none ∧
      (t.offsetX = 35 ∧ t.offsetY = 37) ∧
      Region.kept .standard (t.apply amount.rect) (amountWords.map (·.moved v)) =
        amountWords.map (·.moved v) := by
  intro v t
  have some : pair ≠ [] := List.cons_ne_nil _ _
  obtain ⟨same, follows⟩ := estimate_follows_move .standard pair some [] v
  obtain ⟨-, kept, -⟩ := follows pair_kept [] .standard amount (amountPage amountWords)
    (amountPage (amountWords.map (·.moved v))) amountWords rfl rfl
  rw [(readField_words .standard _ amount rfl).1, (readField_words .standard _ amount rfl).1,
    amount_kept] at kept
  refine ⟨some, pair_kept, ?_, kept⟩
  rw [show t = _ from congrArg transformation same, if_pos pair_kept]
  decide +kernel

/-- Without anchors there is nothing to follow: the report has no fallback and no offset. -/
theorem uncalibrated_not_moved :
    ¬ ∀ (rule : CalibrationRule ℚ) (anchors : List (AnchorMatch ℚ)) (warnings : List String)
      (v : Move ℚ), (estimate rule anchors warnings).fallbackReason = none →
      (estimate rule (anchors.map (·.moved v)) warnings).transformation.offsetX =
        (estimate rule anchors warnings).transformation.offsetX + v.right := by
  intro follows
  have still := follows .standard [] [] ⟨1, 0⟩ rfl
  revert still
  decide +kernel

/-! Fields of a document that shows a drift. The effective rectangle of a field keeps the drifted
words of those that the configured one keeps, so as many words are read there. -/

/-- As much of a word lies in a region after both have drifted. The effective rectangle of a field
keeps the drifted words of which the configured one keeps the words, and as many are read. -/
theorem effective_keeps {t : Transformation K} (upright : t.Upright) :
    (∀ (w : Word K) (region : Rect K),
      (w.drifted t).coverage (t.apply region) = w.coverage region) ∧
      ∀ (gather : RegionRule K) (f : Field K) (pages : PageStore K) (ws : List (Word K)),
        pages.words? f.page = some (ws.map (·.drifted t)) →
        let detail := (Extraction.readField gather pages t f).detail
        Region.kept gather detail.effective (ws.map (·.drifted t)) =
            (Region.kept gather f.rect ws).map (·.drifted t) ∧
          detail.wordCount = (Region.collect gather f.rect ws).wordCount := by
  constructor
  · exact Word.coverage_drifted upright
  · intro gather f pages ws there detail
    obtain ⟨effective, count⟩ := readField_words gather t f there
    constructor
    · rw [show detail.effective = _ from effective]
      exact Region.kept_drifted upright gather f.rect ws
    · have read := (Region.ordered_perm gather (t.apply f.rect) (ws.map (·.drifted t))).length_eq
      rw [Region.kept_drifted upright, List.length_map] at read
      rw [show detail.wordCount = _ from count, read]
      exact (Region.ordered_perm gather f.rect ws).length_eq.symm

/-- A document twice as wide as its template and half as high. -/
def widened : Transformation ℚ := ⟨5, -3, 2, 1 / 2, 0, 1⟩

/-- What the field of the amount holds in its template. -/
def amountSample : List (Word ℚ) := [⟨"12.50", amount.rect⟩, Word.atCorner ℚ]

theorem effective_keeps_widened :
    widened.Upright ∧
      ((Word.atCorner ℚ).drifted widened).coverage (widened.apply ⟨0, 0, 10, 10⟩) = 1 / 4 ∧
      let ws := amountSample.map (·.drifted widened)
      (amountPage ws).words? amount.page = some ws ∧
        (Extraction.readField .standard (amountPage ws) widened amount).detail.wordCount = 1 := by
  have upright : widened.Upright := ⟨by decide +kernel, by decide +kernel⟩
  obtain ⟨covers, keeps⟩ := effective_keeps upright
  obtain ⟨-, count⟩ := keeps .standard amount (amountPage _) amountSample rfl
  refine ⟨upright, (covers _ _).trans (by decide +kernel), rfl, count.trans ?_⟩
  exact (Region.ordered_perm .standard amount.rect amountSample).length_eq.trans (by decide +kernel)

end CalibrationReport
end Docket
