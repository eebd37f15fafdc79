import Docket.Proofs.Calibration.Collapse
import Docket.Proofs.Order
import Docket.Proofs.Similarity

/-! How the parts of a calibration report hang together. An anchor that counts as matched was found
somewhere and gave text, since what is alike at all is not blank; so the three ways of counting
anchors are nested, and rates and confidence stay between zero and one. -/
namespace Docket

namespace AnchorMatch

section Any
variable {α : Type}

structure TellsOf (a : Anchor α) (m : AnchorMatch α) : Prop where
  name : m.name = a.name
  reference : m.reference = a.reference
  page : m.page = a.page
  configured : m.configured = a.rect

theorem mem_foldl_choice {β : Type} {f : β → β → β} (choice : ∀ a b, f a b = a ∨ f a b = b)
    (rest : List β) (best : β) : rest.foldl f best ∈ best :: rest := by
  induction rest generalizing best with
  | nil => exact List.mem_cons_self
  | cons next rest ih =>
    rw [List.foldl_cons]
    have known := ih (f best next)
    rcases choice best next with same | same
    · rw [same] at known ⊢
      exact List.mem_cons.mpr ((List.mem_cons.mp known).imp_right (List.mem_cons_of_mem _))
    · rw [same] at known ⊢
      exact List.mem_cons_of_mem _ known

variable [Scalar α]

theorem nearest_mem {rect : Rect α} {cs : List (Candidate α)} {c : Candidate α}
    (found : nearest rect cs = some c) : c ∈ cs := by
  cases cs with
  | nil => cases found
  | cons first rest =>
    cases found
    refine mem_foldl_choice (fun best next => ?_) rest first
    split
    · exact .inr rfl
    · exact .inl rfl

theorem isSome_boundingBox {ws : List (Word α)}
    (text : Text.isBlankText (Word.joinTexts ws) = false) :
    (Word.boundingBox ws).isSome = true := by
  cases ws with
  | nil => simp [Word.joinTexts, Text.joined, Text.isBlankText] at text
  | cons w ws => rfl

theorem tellsOf_notFound (a : Anchor α) : TellsOf a (notFound a) := ⟨rfl, rfl, rfl, rfl⟩

theorem tellsOf_locate (rule : CalibrationRule α) (gather : RegionRule α) (a : Anchor α)
    (ws : List (Word α)) : TellsOf a (locate rule gather a ws) := by
  unfold locate
  dsimp only
  split
  · exact ⟨rfl, rfl, rfl, rfl⟩
  · split <;> exact ⟨rfl, rfl, rfl, rfl⟩

end Any

section Exact
variable {K : Type} [ExactNumber K]
open Similarity (InUnit)

/-- The parts of a match agree with each other. -/
structure Coherent (m : AnchorMatch K) : Prop where
  found : m.found = none ↔ m.method = .notFound
  quality : m.quality = .ofSimilarity m.similarity
  outlier : m.isOutlier = true → m.isTextMatch = true

structure Located (m : AnchorMatch K) : Prop where
  coherent : m.Coherent
  similarity : InUnit m.similarity
  matched : m.isTextMatch = true → m.found.isSome = true ∧ Text.isBlankText m.text = false

structure Shown (similarity : K) (text : String) : Prop where
  range : InUnit similarity
  text : 0 < similarity → Text.isBlankText text = false

theorem shown_score (expected found : String) :
    Shown (Similarity.score expected found : K) found :=
  ⟨Similarity.inUnit_score expected found, Similarity.not_blank_of_score⟩

theorem shown_lower {similarity : K} {text : String}
    (shown : Shown similarity (Text.lower text)) : Shown similarity text :=
  ⟨shown.range, fun alike => Text.isBlankText_lower text ▸ shown.text alike⟩

theorem shown_candidate {threshold : K} {a : Anchor K} {p : Phrase K} {tier : Tier}
    {c : Candidate K} (asked : (Similarity.normal a.reference).isEmpty = false)
    (given : tier.candidate? threshold (Similarity.normal a.reference) a p = some c) :
    Shown c.similarity c.phrase.text := by
  have scored : Shown (Similarity.score a.reference (Text.lower p.text) : K) p.text :=
    shown_lower (shown_score a.reference (Text.lower p.text))
  unfold Tier.candidate? at given
  dsimp only at given
  generalize (Similarity.score a.reference (Text.lower p.text) : K) = similarity at given scored
  split at given
  · cases given
  · cases tier with
    | exact =>
      -- here the similarity is one whatever the score, but the text is the normal reference
      obtain ⟨same, told⟩ := Option.ite_none_right_eq_some.mp given
      cases told
      refine shown_lower ⟨⟨zero_le_one, le_refl 1⟩, fun _ => ?_⟩
      rw [same]
      exact Similarity.not_blank_of_normal asked
    | _ =>
      -- the other tiers differ in what they ask of the text and in the rectangle alone
      obtain ⟨-, told⟩ := Option.ite_none_right_eq_some.mp given
      cases told
      exact scored

theorem shown_search {rule : CalibrationRule K} {a : Anchor K} {phrases : List (Phrase K)}
    {c : Candidate K} (found : search rule a phrases = some c) :
    Shown c.similarity c.phrase.text := by
  unfold search at found
  dsimp only at found
  split at found
  · cases found
  · rename_i asked
    obtain ⟨tier, -, best⟩ := List.exists_of_findSome?_eq_some found
    obtain ⟨p, -, given⟩ := List.mem_filterMap.mp (nearest_mem best)
    exact shown_candidate (Bool.not_eq_true _ ▸ asked) given

theorem quality_zero : MatchQuality.ofSimilarity (0 : K) = .poor := by
  have above (n : Nat) (positive : 0 < n) : ¬ (Scalar.ratio n 100 : K) ≤ 0 := by
    rw [Scalar.ratio, Exact.ofNat_eq, Exact.ofNat_eq, not_le]
    positivity
  rw [MatchQuality.ofSimilarity, if_neg (above 95 (by decide)), if_neg (above 85 (by decide)),
    if_neg (above 70 (by decide))]

theorem located_notFound (a : Anchor K) : Located (notFound a) := by
  refine ⟨⟨iff_of_true rfl rfl, quality_zero.symm, ?_⟩, ⟨le_refl 0, zero_le_one⟩, ?_⟩
  · rintro ⟨⟩
  · rintro ⟨⟩

theorem located_withText {a : Anchor K} {threshold similarity : K} {method : MatchMethod}
    {text : String} {found : Option (Rect K)} (positive : 0 < threshold)
    (somewhere : found.isSome = true) (named : method ≠ .notFound)
    (shown : Shown similarity text) :
    Located ((notFound a).withText threshold method text similarity found) := by
  refine ⟨⟨iff_of_false ?_ named, rfl, ?_⟩, shown.range, fun matched => ⟨somewhere, ?_⟩⟩
  · exact Option.isSome_iff_ne_none.mp somewhere
  · rintro ⟨⟩
  · exact shown.text (positive.trans_le (of_decide_eq_true matched))

theorem located_locate {rule : CalibrationRule K} (positive : 0 < rule.similarityThreshold)
    (gather : RegionRule K) (a : Anchor K) (ws : List (Word K)) :
    Located (locate rule gather a ws) := by
  unfold locate
  dsimp only
  split
  · rename_i text
    have shows : Text.isBlankText (Region.collect gather a.rect ws).text = false := by
      simpa [Region.isBlank] using text
    exact located_withText positive (isSome_boundingBox shows) (by decide) (shown_score _ _)
  · split
    · rename_i c found
      exact located_withText positive rfl (by decide) (shown_search found)
    · exact located_notFound a

end Exact
end AnchorMatch

namespace CalibrationReport
open AnchorMatch
open Similarity (InUnit)

section Any
variable {α : Type}

theorem exists_of_mem_right {β γ : Type} {R : β → γ → Prop} {bs : List β} {cs : List γ}
    (related : List.Forall₂ R bs cs) {c : γ} (known : c ∈ cs) : ∃ b ∈ bs, R b c := by
  induction related with
  | nil => cases known
  | cons same _ ih =>
    rcases List.mem_cons.mp known with rfl | later
    · exact ⟨_, List.mem_cons_self, same⟩
    · obtain ⟨b, among, found⟩ := ih later
      exact ⟨b, List.mem_cons_of_mem _ among, found⟩

/-- A match with or without the mark of an outlier, which only a counting one gets. -/
inductive Marked (m : AnchorMatch α) : AnchorMatch α → Prop
  | as (flag : Bool) (only : flag = true → m.isOutlier = true ∨ counts m = true) :
    Marked m { m with isOutlier := flag }

theorem marked_same (m : AnchorMatch α) : Marked m m := .as m.isOutlier .inl

theorem marked_mark (ms : List (AnchorMatch α)) (flags : List Bool) :
    List.Forall₂ Marked ms (mark ms flags) := by
  induction ms generalizing flags with
  | nil => exact .nil
  | cons m ms ih =>
    unfold mark
    split
    · rename_i counted
      cases flags with
      | nil => exact List.forall₂_same.mpr fun m _ => marked_same m
      | cons flag flags => exact .cons (.as _ fun _ => .inr counted) (ih flags)
    · exact .cons (marked_same m) (ih flags)

theorem Marked.tellsOf {a : Anchor α} {m m' : AnchorMatch α} (marked : Marked m m')
    (tells : TellsOf a m) : TellsOf a m' := by
  cases marked
  exact ⟨tells.name, tells.reference, tells.page, tells.configured⟩

theorem Marked.isTextMatch {m m' : AnchorMatch α} (marked : Marked m m') :
    m'.isTextMatch = m.isTextMatch := by
  cases marked
  rfl

end Any

section Exact
variable {K : Type} [ExactNumber K]

theorem Marked.coherent {m m' : AnchorMatch K} (marked : Marked m m') (located : Located m) :
    m'.Coherent := by
  cases marked with
  | as flag only =>
    refine ⟨located.coherent.found, located.coherent.quality, fun flagged => ?_⟩
    rcases only flagged with before | counted
    · exact located.coherent.outlier before
    · exact (Bool.and_eq_true_iff.mp counted).1

theorem locateAll_sound {rule : CalibrationRule K} (positive : 0 < rule.similarityThreshold)
    (gather : RegionRule K) (source : PageSource K) (anchors : List (Anchor K)) (v : Visits K) :
    List.Forall₂ (fun a m => TellsOf a m ∧ Located m) anchors
      (locateAll rule gather source anchors v).1 := by
  induction anchors generalizing v with
  | nil => exact .nil
  | cons a rest ih =>
    simp only [locateAll]
    refine .cons ?_ (ih _)
    split
    · exact ⟨tellsOf_locate rule gather a _, located_locate positive gather a _⟩
    · exact ⟨tellsOf_notFound a, located_notFound a⟩

theorem counts_eq {m : AnchorMatch K} (located : Located m) : counts m = m.isTextMatch := by
  cases told : m.isTextMatch with
  | false => rw [counts, told, Bool.false_and]
  | true => rw [counts, told, (located.matched told).1, Bool.and_self]

theorem gaveText_of_counts {m : AnchorMatch K} (located : Located m) (counted : counts m = true) :
    gaveText m = true := by
  rw [counts_eq located] at counted
  rw [gaveText, (located.matched counted).2]
  rfl

theorem matchedCount_eq {ms ms' : List (AnchorMatch K)} (located : ∀ m ∈ ms, Located m)
    (marked : List.Forall₂ Marked ms ms') :
    (ms'.filter (·.isTextMatch)).length = (matched ms).length := by
  rw [matched, List.filter_congr fun m known => counts_eq (located m known)]
  clear located
  induction marked with
  | nil => rfl
  | cons same _ ih =>
    rw [List.filter_cons, List.filter_cons, same.isTextMatch]
    split
    · rw [List.length_cons, List.length_cons, ih]
    · exact ih

theorem inUnit_mean {xs : List K} (range : ∀ x ∈ xs, InUnit x) : InUnit (Statistics.mean xs) := by
  rw [Statistics.mean_eq]
  have most : xs.sum ≤ xs.length := by
    simpa using List.sum_le_card_nsmul xs 1 fun x known => (range x known).2
  exact ⟨div_nonneg (List.sum_nonneg fun x known => (range x known).1) (Nat.cast_nonneg _),
    div_le_one_of_le₀ most (Nat.cast_nonneg _)⟩

theorem inUnit_weigh {extraction counted similarity : K} (first : InUnit extraction)
    (second : InUnit counted) (third : InUnit similarity) :
    InUnit (weigh extraction counted similarity) := by
  have weight (n : Nat) : (Scalar.ratio n 10 : K) = n / 10 := by
    simp [Scalar.ratio, Exact.ofNat_eq]
  obtain ⟨low₁, high₁⟩ := first
  obtain ⟨low₂, high₂⟩ := second
  obtain ⟨low₃, high₃⟩ := third
  rw [weigh, weight, weight]
  push_cast
  constructor <;> linarith

/-- The confidence that is held against the floor: one matched anchor gives no more than the cap. -/
def cappedConfidence (rule : CalibrationRule K) (r : CalibrationReport K) : K :=
  if r.matchedCount = 1 then Scalar.min r.rawConfidence rule.singleAnchorCap else r.rawConfidence

/-- What a report says of the anchors of a template, of how far it is trusted and why it was
discarded agrees. -/
structure Consistent (rule : CalibrationRule K) (t : Template K) (r : CalibrationReport K) :
    Prop where
  anchors : ∃ ordered, InOrder Anchor.order t.anchors ordered ∧
    List.Forall₂ TellsOf ordered r.anchors
  coherent : ∀ m ∈ r.anchors, m.Coherent
  matchRate : 0 ≤ r.matchRate ∧ r.matchRate ≤ r.extractionRate
  extractionRate : r.extractionRate ≤ 1
  matchedCount : r.matchRate * t.anchors.length = r.matchedCount
  rawConfidence : InUnit r.rawConfidence
  confidence : InUnit r.confidence
  fallback : r.fallbackReason.isSome = true ↔
    r.matchedCount = 0 ∨ cappedConfidence rule r < rule.confidenceFloor
  discarded : r.fallbackReason.isSome = true → r.transformation = .unmoved rule.lowConfidence
  kept : r.fallbackReason = none → r.confidence = cappedConfidence rule r

theorem estimate_parts (rule : CalibrationRule K) {ms : List (AnchorMatch K)} (some : ms ≠ [])
    (warnings : List String) :
    let r := estimate rule ms warnings
    List.Forall₂ Marked ms r.anchors ∧
      r.extractionRate = ((ms.filter gaveText).length : K) / ms.length ∧
      r.matchRate = ((matched ms).length : K) / ms.length ∧
      r.rawConfidence = weigh r.extractionRate r.matchRate
        (Statistics.mean ((ms.filter gaveText).map (·.similarity))) := by
  have nonempty : ms.isEmpty = false := by simpa using some
  simp only [estimate, nonempty, Bool.false_eq_true, if_false, List.length_map]
  split <;> exact ⟨marked_mark ms _, rfl, rfl, rfl⟩

theorem isSome_fallback? (rule : CalibrationRule K) (matched : Nat) (confidence : K) :
    (fallback? rule matched confidence).isSome = true ↔
      matched = 0 ∨ confidence < rule.confidenceFloor := by
  unfold fallback?
  split
  · rename_i none
    exact iff_of_true rfl (.inl none)
  · rename_i some
    split
    · rename_i low
      exact iff_of_true rfl (.inr low)
    · rename_i high
      exact iff_of_false (by simp) (not_or.mpr ⟨some, high⟩)

theorem estimate_fallback (rule : CalibrationRule K) {ms : List (AnchorMatch K)} (some : ms ≠ [])
    (warnings : List String) :
    let r := estimate rule ms warnings
    let c := if (matched ms).length = 1 then Scalar.min r.rawConfidence rule.singleAnchorCap
      else r.rawConfidence
    (r.fallbackReason.isSome = true ↔ (matched ms).length = 0 ∨ c < rule.confidenceFloor) ∧
      (r.fallbackReason.isSome = true → r.transformation = .unmoved rule.lowConfidence) ∧
      (r.fallbackReason = none → r.confidence = c) := by
  have nonempty : ms.isEmpty = false := by simpa using some
  simp only [estimate, nonempty, Bool.false_eq_true, if_false]
  split
  · rename_i reason told
    have low := (isSome_fallback? rule _ _).mp (Option.isSome_of_eq_some told)
    exact ⟨iff_of_true rfl low, fun _ => rfl, by rintro ⟨⟩⟩
  · rename_i told
    have high := mt (isSome_fallback? rule _ _).mpr (Option.not_isSome_iff_eq_none.mpr told)
    exact ⟨iff_of_false (by simp) high, by rintro ⟨⟩, fun _ => rfl⟩

theorem reported_sound {anchors : List (Anchor K)} {ms ms' : List (AnchorMatch K)}
    (sound : List.Forall₂ (fun a m => TellsOf a m ∧ Located m) anchors ms)
    (marked : List.Forall₂ Marked ms ms') :
    List.Forall₂ (fun a m => TellsOf a m ∧ m.Coherent) anchors ms' := by
  induction sound generalizing ms' with
  | nil =>
    cases marked
    exact .nil
  | cons told _ ih =>
    cases marked with
    | cons same rest => exact .cons ⟨same.tellsOf told.1, same.coherent told.2⟩ (ih rest)

theorem matched_le_gaveText {ms : List (AnchorMatch K)} (each : ∀ m ∈ ms, Located m) :
    (matched ms).length ≤ (ms.filter gaveText).length := by
  rw [matched, ← List.countP_eq_length_filter, ← List.countP_eq_length_filter]
  exact List.countP_mono_left fun m known => gaveText_of_counts (each m known)

theorem inUnit_part {k n : Nat} (less : k ≤ n) : InUnit ((k : K) / n) :=
  ⟨by positivity, div_le_one_of_le₀ (Nat.cast_le.mpr less) (Nat.cast_nonneg n)⟩

theorem matchedCount_estimate (rule : CalibrationRule K) {ms : List (AnchorMatch K)}
    (some : ms ≠ []) (each : ∀ m ∈ ms, Located m) (warnings : List String) :
    (estimate rule ms warnings).matchedCount = (matched ms).length :=
  matchedCount_eq each (estimate_parts rule some warnings).1

theorem estimate_rates (rule : CalibrationRule K) {ms : List (AnchorMatch K)} (some : ms ≠ [])
    (each : ∀ m ∈ ms, Located m) (warnings : List String) :
    let r := estimate rule ms warnings
    (0 ≤ r.matchRate ∧ r.matchRate ≤ r.extractionRate) ∧ r.extractionRate ≤ 1 ∧
      r.matchRate * ms.length = r.matchedCount ∧ InUnit r.rawConfidence := by
  intro r
  obtain ⟨-, extraction, matching, raw⟩ := estimate_parts rule some warnings
  have count : r.matchedCount = (matched ms).length := matchedCount_estimate rule some each warnings
  have extracted : InUnit r.extractionRate :=
    extraction ▸ inUnit_part (List.length_filter_le _ _)
  have agreed : InUnit r.matchRate := matching ▸ inUnit_part (List.length_filter_le _ _)
  have alike : ∀ x ∈ (ms.filter gaveText).map (·.similarity), InUnit x := by
    intro x known
    obtain ⟨m, among, rfl⟩ := List.mem_map.mp known
    exact (each m (List.mem_filter.mp among).1).similarity
  have total : (ms.length : K) ≠ 0 := Nat.cast_ne_zero.mpr (List.length_pos_iff.mpr some).ne'
  refine ⟨⟨agreed.1, ?_⟩, extracted.2, ?_, ?_⟩
  · rw [show r.matchRate = _ from matching, show r.extractionRate = _ from extraction]
    gcongr
    exact matched_le_gaveText each
  · rw [show r.matchRate = _ from matching, div_mul_cancel₀ _ total, count]
  · exact (raw : r.rawConfidence = _) ▸ inUnit_weigh extracted agreed (inUnit_mean alike)

theorem inUnit_confidence {rule : CalibrationRule K} {r : CalibrationReport K}
    (low : InUnit rule.lowConfidence) (cap : InUnit rule.singleAnchorCap)
    (raw : InUnit r.rawConfidence)
    (discarded : r.fallbackReason.isSome = true → r.transformation = .unmoved rule.lowConfidence)
    (kept : r.fallbackReason = none → r.confidence = cappedConfidence rule r) :
    InUnit r.confidence := by
  cases told : r.fallbackReason with
  | none =>
    rw [kept told, cappedConfidence]
    split
    · exact raw.min cap
    · exact raw
  | some reason =>
    rw [CalibrationReport.confidence, discarded (Option.isSome_of_eq_some told)]
    exact low

/-- In exact arithmetic every report of a template with anchors is consistent. -/
theorem calibrate_consistent (rule : CalibrationRule K) (gather : RegionRule K) (t : Template K)
    (source : PageSource K) (some : t.anchors ≠ []) (threshold : 0 < rule.similarityThreshold)
    (low : InUnit rule.lowConfidence) (cap : InUnit rule.singleAnchorCap) :
    Consistent rule t (calibrate rule gather t source) := by
  have order : InOrder Anchor.order t.anchors t.orderedAnchors :=
    inOrder_mergeSort Anchor.order t.anchors
  have sound : List.Forall₂ (fun a m => TellsOf a m ∧ Located m) t.orderedAnchors
      (located rule gather t source) := locateAll_sound threshold gather source _ _
  rw [calibrate_eq]
  generalize (locateAll rule gather source t.orderedAnchors ⟨[], []⟩).2.warnings = warnings
  generalize located rule gather t source = ms at sound ⊢
  have length : ms.length = t.anchors.length := sound.length_eq.symm.trans order.perm.length_eq
  have several : ms ≠ [] := by
    rw [← List.length_pos_iff, length, List.length_pos_iff]
    exact some
  have each : ∀ m ∈ ms, Located m := by
    intro m known
    obtain ⟨a, -, -, found⟩ := exists_of_mem_right sound known
    exact found
  have reported := reported_sound sound (estimate_parts rule several warnings).1
  have count := matchedCount_estimate rule several each warnings
  obtain ⟨matchRate, extractionRate, matchedCount, raw⟩ := estimate_rates rule several each warnings
  obtain ⟨fallback, discarded, kept⟩ := estimate_fallback rule several warnings
  rw [← count] at fallback kept
  rw [length] at matchedCount
  refine
    { anchors := ⟨t.orderedAnchors, order, reported.imp fun a m told => told.1⟩
      coherent := fun m known => ?_
      matchRate, extractionRate, matchedCount
      rawConfidence := raw
      confidence := inUnit_confidence low cap raw discarded kept
      fallback, discarded, kept }
  obtain ⟨a, -, -, found⟩ := exists_of_mem_right reported known
  exact found

end Exact

/-- The second label stands far from its place, where only the search by phrases finds it. -/
theorem calibrate_consistent_labels :
    labels.anchors ≠ [] ∧
      (0 : ℚ) < (CalibrationRule.standard : CalibrationRule ℚ).similarityThreshold ∧
      InUnit (CalibrationRule.standard : CalibrationRule ℚ).lowConfidence ∧
      InUnit (CalibrationRule.standard : CalibrationRule ℚ).singleAnchorCap ∧
      Consistent .standard labels (calibrate .standard .standard labels (labelled 400)) := by
  have some : labels.anchors ≠ [] := by simp [labels]
  have threshold : (0 : ℚ) <
      (CalibrationRule.standard : CalibrationRule ℚ).similarityThreshold := by decide +kernel
  have low : InUnit (CalibrationRule.standard : CalibrationRule ℚ).lowConfidence :=
    Similarity.inUnit_ratio (by decide)
  have cap : InUnit (CalibrationRule.standard : CalibrationRule ℚ).singleAnchorCap :=
    Similarity.inUnit_ratio (by decide)
  exact ⟨some, threshold, low, cap,
    calibrate_consistent .standard .standard labels (labelled 400) some threshold low cap⟩

end CalibrationReport
end Docket
