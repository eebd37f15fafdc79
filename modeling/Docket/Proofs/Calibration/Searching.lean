import Docket.Calibration.AnchorMatch
import Docket.Proofs.Layout.Phrases
import Docket.Proofs.Number.Comparing
import Docket.Proofs.Text.Normal

/-! What a search among the phrases of a page finds: of the first way to show the anchor that any
phrase has, the phrase nearest to where the anchor should be, the first of equally near ones. On
words with finite corners all distances compare, so there is a nearest. -/
namespace Docket

section Least
variable {β γ : Type} [LinearOrder γ] {key : β → γ} {xs : List β} {best : β}

/-- The first of the members of a list with the least key. -/
def FirstLeast (key : β → γ) (xs : List β) (best : β) : Prop :=
  ∃ before after, xs = before ++ best :: after ∧ (∀ b ∈ before, key best < key b) ∧
    ∀ b ∈ after, key best ≤ key b

theorem FirstLeast.mem (least : FirstLeast key xs best) : best ∈ xs := by
  obtain ⟨before, after, rfl, -, -⟩ := least
  exact List.mem_append_right _ List.mem_cons_self

theorem FirstLeast.le (least : FirstLeast key xs best) {b : β} (known : b ∈ xs) :
    key best ≤ key b := by
  obtain ⟨before, after, rfl, above, behind⟩ := least
  rcases List.mem_append.mp known with first | later
  · exact (above b first).le
  · rcases List.mem_cons.mp later with rfl | last
    · exact le_refl _
    · exact behind b last

/-- One more member is the first of the least only if it is less than all. -/
theorem FirstLeast.snoc (least : FirstLeast key xs best) (next : β) :
    FirstLeast key (xs ++ [next]) (if key next < key best then next else best) := by
  split
  · rename_i less
    exact ⟨xs, [], rfl, fun b known => less.trans_le (least.le known), by simp⟩
  · rename_i not_less
    obtain ⟨before, after, rfl, above, behind⟩ := least
    refine ⟨before, after ++ [next], by simp, above, fun b known => ?_⟩
    rcases List.mem_append.mp known with among | last
    · exact behind b among
    · rw [List.mem_singleton.mp last]
      exact not_lt.mp not_less

theorem firstLeast_foldl {nearer : β → β → Prop} [DecidableRel nearer] (first : β) (rest : List β)
    (told : ∀ b ∈ first :: rest, ∀ b' ∈ first :: rest, nearer b b' ↔ key b < key b') :
    FirstLeast key (first :: rest)
      (rest.foldl (fun best next => if nearer next best then next else best) first) := by
  induction rest using List.reverseRecOn with
  | nil => exact ⟨[], [], rfl, by simp, by simp⟩
  | append_singleton rest next ih =>
    have least := ih fun b known b' known' =>
      told b (List.mem_append_left [next] known) b' (List.mem_append_left [next] known')
    have same := told next (List.mem_append_right (first :: rest) List.mem_cons_self) _
      (List.mem_append_left [next] least.mem)
    rw [List.foldl_append, List.foldl_cons, List.foldl_nil]
    simp only [same]
    exact least.snoc next

/-- What comes before the first of the least is greater, if it counts at all. -/
theorem FirstLeast.of_filterMap {δ : Type} {f : δ → Option β} {ds : List δ}
    (least : FirstLeast key (ds.filterMap f) best) :
    ∃ before d after, ds = before ++ d :: after ∧ f d = some best ∧
      ∀ e ∈ before, ∀ b, f e = some b → key best < key b := by
  obtain ⟨above, behind, split, greater, -⟩ := least
  obtain ⟨start, rest, rfl, begun, ended⟩ := List.filterMap_eq_append_iff.mp split
  obtain ⟨skipped, d, after, rfl, none, given, -⟩ := List.filterMap_eq_cons_iff.mp ended
  refine ⟨start ++ skipped, d, after, by simp, given, fun e known b shown => ?_⟩
  rcases List.mem_append.mp known with early | late
  · exact greater b (begun ▸ List.mem_filterMap.mpr ⟨e, early, shown⟩)
  · rw [none e late] at shown
    cases shown

end Least

namespace AnchorMatch

section Any
variable {α : Type} [Scalar α]

/-- What a tier asks of the small text of a phrase. -/
def Tier.Asks (threshold : α) (a : Anchor α) (text : String) : Tier → Prop
  | exact => text = Similarity.normal a.reference
  | contains => (Similarity.normal a.reference).toList <:+: text.toList
  | containedIn => text.toList <:+: (Similarity.normal a.reference).toList
  | fuzzy => threshold ≤ Similarity.score a.reference text

/-- Whether a phrase shows an anchor in the way of a tier; one without text shows none. -/
def Tier.Shows (threshold : α) (a : Anchor α) (p : Phrase α) (tier : Tier) : Prop :=
  Text.lower p.text ≠ "" ∧ tier.Asks threshold a (Text.lower p.text)

/-- What is reported of a phrase that shows an anchor: the whole phrase, or the run of its words
that holds the reference if it only contains it. -/
def Tier.report (a : Anchor α) (p : Phrase α) : Tier → Candidate α
  | exact => ⟨p, p.box, 1⟩
  | contains => ⟨p, (p.locate (Similarity.normal a.reference)).getD p.box,
      Similarity.score a.reference (Text.lower p.text)⟩
  | containedIn | fuzzy => ⟨p, p.box, Similarity.score a.reference (Text.lower p.text)⟩

theorem Tier.candidate?_eq_some_iff {threshold : α} {a : Anchor α} {p : Phrase α} {tier : Tier}
    {c : Candidate α} :
    tier.candidate? threshold (Similarity.normal a.reference) a p = some c ↔
      tier.Shows threshold a p ∧ tier.report a p = c := by
  unfold Tier.candidate? Tier.Shows
  dsimp only
  split
  · rename_i empty
    simp [String.isEmpty_iff.mp empty]
  · rename_i some
    have nonempty : Text.lower p.text ≠ "" := fun none => some (String.isEmpty_iff.mpr none)
    cases tier <;>
      simp [Tier.Asks, Tier.report, Text.contains_iff, nonempty]

theorem nearest_eq_none_iff {rect : Rect α} {cs : List (Candidate α)} :
    nearest rect cs = none ↔ cs = [] := by
  cases cs <;> simp [nearest]

/-- The candidates that the phrases give for a tier. -/
def shown (threshold : α) (a : Anchor α) (phrases : List (Phrase α)) (tier : Tier) :
    List (Candidate α) :=
  phrases.filterMap fun p => tier.candidate? threshold (Similarity.normal a.reference) a p

theorem mem_shown {threshold : α} {a : Anchor α} {phrases : List (Phrase α)} {tier : Tier}
    {c : Candidate α} :
    c ∈ shown threshold a phrases tier ↔
      ∃ p ∈ phrases, tier.Shows threshold a p ∧ tier.report a p = c := by
  simp only [shown, List.mem_filterMap, Tier.candidate?_eq_some_iff]

theorem shown_eq_nil_iff {threshold : α} {a : Anchor α} {phrases : List (Phrase α)} {tier : Tier} :
    shown threshold a phrases tier = [] ↔ ∀ p ∈ phrases, ¬ tier.Shows threshold a p := by
  rw [List.eq_nil_iff_forall_not_mem]
  constructor
  · intro none p known shows
    exact none _ (mem_shown.mpr ⟨p, known, shows, rfl⟩)
  · intro none c given
    obtain ⟨p, known, shows, -⟩ := mem_shown.mp given
    exact none p known shows

theorem search_eq {a : Anchor α} (text : Text.isBlankText a.reference = false)
    (rule : CalibrationRule α) (phrases : List (Phrase α)) :
    search rule a phrases = Tier.every.findSome? fun tier =>
      nearest a.rect (shown rule.similarityThreshold a phrases tier) := by
  have asked : (Similarity.normal a.reference).isEmpty = false := by
    rw [Bool.eq_false_iff, ne_eq, String.isEmpty_iff, Similarity.normal_eq_empty_iff, text]
    exact Bool.false_ne_true
  rw [search, asked, if_neg Bool.false_ne_true]
  rfl

theorem mem_every (tier : Tier) : tier ∈ Tier.every := by
  cases tier <;> decide

theorem search_eq_none_iff {a : Anchor α} (text : Text.isBlankText a.reference = false)
    (rule : CalibrationRule α) (phrases : List (Phrase α)) :
    search rule a phrases = none ↔
      ∀ tier : Tier, ∀ p ∈ phrases, ¬ tier.Shows rule.similarityThreshold a p := by
  simp only [search_eq text, List.findSome?_eq_none_iff, nearest_eq_none_iff, shown_eq_nil_iff]
  exact ⟨fun none tier => none tier (mem_every tier), fun none tier _ => none tier⟩

/-- The rectangle that is reported surrounds words of the phrase. -/
theorem Tier.box_report {a : Anchor α} {p : Phrase α}
    (boxed : Word.boundingBox p.words = some p.box) (tier : Tier) :
    ∃ run, run.Sublist p.words ∧ Word.boundingBox run = some (tier.report a p).rect := by
  cases tier with
  | contains =>
    cases narrowed : p.locate (Similarity.normal a.reference) with
    | none => exact ⟨p.words, List.Sublist.refl _, by simp [report, narrowed, boxed]⟩
    | some box =>
      obtain ⟨run, inside, boxed⟩ := Phrase.locate_eq_some narrowed
      exact ⟨run, inside, by simp [report, narrowed, boxed]⟩
  | _ => exact ⟨p.words, List.Sublist.refl _, boxed⟩

/-- Whether a rectangle holds any text does not depend on the order the words were drawn in. -/
theorem isBlank_collect_perm (gather : RegionRule α) (area : Rect α) {ws ws' : List (Word α)}
    (perm : ws'.Perm ws) :
    (Region.collect gather area ws').isBlank = (Region.collect gather area ws).isBlank := by
  have texts (ws : List (Word α)) :
      (Region.collect gather area ws).isBlank =
        (((Region.ordered gather area ws).map (·.text)).filter (!·.isEmpty)).all
          Text.isBlankText := by
    rw [Region.isBlank, Region.collect, Word.joinTexts, Text.isBlankText_joined]
  have sorted (ws : List (Word α)) :
      (Region.ordered gather area ws).Perm (Region.kept gather area ws) := List.mergeSort_perm ..
  have same : (Region.ordered gather area ws').Perm (Region.ordered gather area ws) :=
    (sorted ws').trans ((perm.filter _).trans (sorted ws).symm)
  rw [texts, texts, ((same.map _).filter _).all_eq]

/-- An anchor whose rectangle holds no word is looked for among the phrases. -/
theorem locate_of_kept_nil {gather : RegionRule α} {a : Anchor α} {ws : List (Word α)}
    (outside : Region.kept gather a.rect ws = []) (rule : CalibrationRule α) :
    locate rule gather a ws =
      match search rule a (Phrase.build rule.phrases ws) with
      | some c => (notFound a).withText rule.similarityThreshold .phraseSearch c.phrase.text
          c.similarity (some c.rect)
      | none => notFound a := by
  have blank : (Region.collect gather a.rect ws).isBlank = true := by
    simp [Region.isBlank, Region.collect, Region.ordered, outside, Word.sortReading, Word.joinTexts,
      Text.joined, Text.isBlankText]
  cases found : search rule a (Phrase.build rule.phrases ws) <;>
    simp only [locate, blank, found, Bool.not_true, Bool.false_eq_true, if_false]

theorem locate_eq_of_build (rule : CalibrationRule α) (gather : RegionRule α) (a : Anchor α)
    {ws ws' : List (Word α)} (perm : ws'.Perm ws)
    (same : Phrase.build rule.phrases ws' = Phrase.build rule.phrases ws) :
    (locate rule gather a ws').method = (locate rule gather a ws).method ∧
      ((locate rule gather a ws).method ≠ .exactRegion →
        locate rule gather a ws' = locate rule gather a ws) := by
  have blank := isBlank_collect_perm gather a.rect perm
  unfold locate
  dsimp only
  rw [blank, same]
  cases (Region.collect gather a.rect ws).isBlank with
  | true =>
    simp only [Bool.not_true, Bool.false_eq_true, if_false]
    exact ⟨trivial, fun _ => trivial⟩
  | false =>
    simp only [Bool.not_false, if_true]
    exact ⟨rfl, fun other => absurd rfl other⟩

end Any

section Doubles

/-- The corner of a rectangle lies at finite numbers. -/
structure AtFinite (r : Rect Float) : Prop where
  x : r.x.isFinite = true
  y : r.y.isFinite = true

/-- From a finite corner a distance is a number unless the other corner is none. -/
theorem isNaN_originDistance {r : Rect Float} (finite : AtFinite r) (rect : Rect Float) :
    (r.originDistance rect).isNaN = (rect.x.isNaN || rect.y.isNaN) := by
  have root : (r.originDistance rect).isNaN = ((r.x - rect.x).isNaN || (r.y - rect.y).isNaN) :=
    Double.isNaN_hypotenuse (r.x - rect.x) (r.y - rect.y)
  rw [root, Double.isNaN_sub finite.x, Double.isNaN_sub finite.y]

theorem atFinite_report {rule : PhraseRule Float} {ws : List (Word Float)}
    (finite : ∀ w ∈ ws, AtFinite w.box) (a : Anchor Float) (tier : Tier) {p : Phrase Float}
    (known : p ∈ Phrase.build rule ws) : AtFinite (tier.report a p).rect := by
  have shares := Phrase.build_shares rule ws
  obtain ⟨run, inside, boxed⟩ := tier.box_report (a := a) (shares.runs p known).box
  have among (w : Word Float) (member : w ∈ run) : w ∈ ws :=
    shares.perm.mem_iff.mp (List.mem_flatMap.mpr ⟨p, known, inside.subset member⟩)
  obtain ⟨⟨left, first, atLeft⟩, top, second, atTop⟩ := Phrase.corner_boundingBox boxed
  exact ⟨atLeft ▸ (finite left (among left first)).x, atTop ▸ (finite top (among top second)).y⟩

/-- The place of a candidate's distance in the row of all numbers. -/
def farness (rect : Rect Float) (c : Candidate Float) : ℤ ×ₗ ℤ ×ₗ ℤ :=
  Double.rank (Double.unpacked (c.rect.originDistance rect))

theorem lt_iff_farness {rect : Rect Float} {c d : Candidate Float} (finite : AtFinite c.rect)
    (finite' : AtFinite d.rect) :
    c.rect.originDistance rect < d.rect.originDistance rect ↔ farness rect c < farness rect d := by
  refine Double.lt_iff_rank_of_alike ?_
  rw [isNaN_originDistance finite, isNaN_originDistance finite']

theorem firstLeast_nearest {rect : Rect Float} {cs : List (Candidate Float)} {c : Candidate Float}
    (finite : ∀ d ∈ cs, AtFinite d.rect) (found : nearest rect cs = some c) :
    FirstLeast (farness rect) cs c := by
  cases cs with
  | nil => cases found
  | cons first rest =>
    cases found
    exact firstLeast_foldl first rest fun b known b' known' =>
      lt_iff_farness (finite b known) (finite b' known')

/-- The phrase that a search should find: it shows the anchor in the first way that any phrase does,
none that shows it so lies nearer to the anchor's place, and those before it lie farther off. From a
place that is told by numbers all distances compare. -/
structure IsBest (threshold : Float) (a : Anchor Float) (phrases : List (Phrase Float))
    (tier : Tier) (c : Candidate Float) : Prop where
  first : ∃ higher lower, Tier.every = higher ++ tier :: lower ∧
    ∀ t ∈ higher, ∀ p ∈ phrases, ¬ t.Shows threshold a p
  shows : tier.Shows threshold a c.phrase
  report : tier.report a c.phrase = c
  unbeaten : ∀ p ∈ phrases, tier.Shows threshold a p →
    ¬ (tier.report a p).rect.originDistance a.rect < c.rect.originDistance a.rect
  nearest : a.rect.x.isNaN = false → a.rect.y.isNaN = false →
    ∀ p ∈ phrases, tier.Shows threshold a p →
      c.rect.originDistance a.rect ≤ (tier.report a p).rect.originDistance a.rect
  earliest : ∃ before after, phrases = before ++ c.phrase :: after ∧
    ∀ p ∈ before, tier.Shows threshold a p →
      c.rect.originDistance a.rect < (tier.report a p).rect.originDistance a.rect

theorem search_best (rule : CalibrationRule Float) {a : Anchor Float} {ws : List (Word Float)}
    (text : Text.isBlankText a.reference = false) (finite : ∀ w ∈ ws, AtFinite w.box) :
    let phrases := Phrase.build rule.phrases ws
    (search rule a phrases = none ↔
      ∀ tier : Tier, ∀ p ∈ phrases, ¬ tier.Shows rule.similarityThreshold a p) ∧
    ∀ c, search rule a phrases = some c →
      ∃ tier, IsBest rule.similarityThreshold a phrases tier c := by
  intro phrases
  refine ⟨search_eq_none_iff text rule phrases, fun c found => ?_⟩
  rw [search_eq text] at found
  obtain ⟨higher, tier, lower, every, best, none⟩ := List.findSome?_eq_some_iff.mp found
  have corners (d : Candidate Float)
      (given : d ∈ shown rule.similarityThreshold a phrases tier) : AtFinite d.rect := by
    obtain ⟨p, known, -, rfl⟩ := mem_shown.mp given
    exact atFinite_report finite a tier known
  have least := firstLeast_nearest corners best
  obtain ⟨before, p, after, split, given, above⟩ := least.of_filterMap
  obtain ⟨shows, report⟩ := Tier.candidate?_eq_some_iff.mp given
  obtain rfl : c.phrase = p := by
    rw [← report]
    cases tier <;> rfl
  have reported (q : Phrase Float) (shows : tier.Shows rule.similarityThreshold a q) :
      tier.candidate? rule.similarityThreshold (Similarity.normal a.reference) a q =
        some (tier.report a q) := Tier.candidate?_eq_some_iff.mpr ⟨shows, rfl⟩
  have known (q : Phrase Float) (among : q ∈ phrases)
      (shows : tier.Shows rule.similarityThreshold a q) :
      tier.report a q ∈ shown rule.similarityThreshold a phrases tier :=
    mem_shown.mpr ⟨q, among, shows, rfl⟩
  refine ⟨tier, ⟨higher, lower, every, fun t among => ?_⟩, shows, report,
    fun q among shows => ?_, ?_, before, after, split, fun q among shows => ?_⟩
  · exact shown_eq_nil_iff.mp (nearest_eq_none_iff.mp (none t among))
  · rw [lt_iff_farness (corners _ (known q among shows)) (corners c least.mem)]
    exact not_lt.mpr (least.le (known q among shows))
  · intro numberX numberY q among shows
    have number (d : Candidate Float) (finite : AtFinite d.rect) :
        (d.rect.originDistance a.rect).isNaN = false := by
      rw [isNaN_originDistance finite, numberX, numberY]
      rfl
    exact (Double.le_iff_rank _ _).mpr ⟨number c (corners c least.mem),
      number _ (corners _ (known q among shows)), least.le (known q among shows)⟩
  · have member : q ∈ phrases := split ▸ List.mem_append_left _ among
    exact (lt_iff_farness (corners c least.mem) (corners _ (known q member shows))).mpr
      (above q among _ (reported q shows))

/-- Two totals on a page, the second one in a line with another word and farther off. -/
def totals : List (Word Float) :=
  [⟨"Total", ⟨150, 100, 30, 10⟩⟩, ⟨"Grand", ⟨400, 500, 30, 10⟩⟩, ⟨"Total:", ⟨435, 500, 30, 10⟩⟩]

def total : Anchor Float := ⟨"total", " Total: ", 1, ⟨100, 100, 40, 12⟩, 0⟩

/-- The line that contains the reference is found, not a nearer word that the reference contains. -/
theorem search_best_totals :
    Text.isBlankText total.reference = false ∧ (∀ w ∈ totals, AtFinite w.box) ∧
      ∃ c tier, search .standard total (Phrase.build Phrase.standard totals) = some c ∧
        c.rect = ⟨435, 500, 30, 10⟩ ∧
        IsBest (Scalar.ratio 7 10) total (Phrase.build Phrase.standard totals) tier c := by
  have text : Text.isBlankText total.reference = false := by decide
  have corners : ∀ w ∈ totals, w.box.x.isFinite = true ∧ w.box.y.isFinite = true := by
    decide +kernel
  have finite : ∀ w ∈ totals, AtFinite w.box := fun w known =>
    ⟨(corners w known).1, (corners w known).2⟩
  have built : Phrase.build (Phrase.standard : PhraseRule Float) totals = _ :=
    Phrase.build_of_ordered (by decide +kernel) (by decide +kernel)
  have found : (search .standard total (Phrase.build Phrase.standard totals)).map (·.rect) =
      some ⟨435, 500, 30, 10⟩ := by
    rw [built]
    decide +kernel
  obtain ⟨c, searched, rect⟩ := Option.map_eq_some_iff.mp found
  obtain ⟨tier, best⟩ := (search_best .standard text finite).2 c searched
  exact ⟨text, finite, c, tier, searched, rect, best⟩

/-- Words drawn in another order, no two of them at one corner, make the same phrases, and an anchor
that is not found in its rectangle is found the same way. -/
theorem locate_drawn (rule : CalibrationRule Float) (gather : RegionRule Float) (a : Anchor Float)
    {ws ws' : List (Word Float)} (perm : ws'.Perm ws) (apart : Phrase.Apart ws) :
    (∀ spacing, Phrase.build spacing ws' = Phrase.build spacing ws) ∧
      (locate rule gather a ws').method = (locate rule gather a ws).method ∧
      ((locate rule gather a ws).method ≠ .exactRegion →
        locate rule gather a ws' = locate rule gather a ws) := by
  have built (spacing : PhraseRule Float) := Phrase.build_perm_eq spacing perm apart
  exact ⟨built, locate_eq_of_build rule gather a perm (built rule.phrases)⟩

end Doubles

/-- A line that goes down a little from word to word. -/
def slope : List (Word Float) :=
  [⟨"Invoice", ⟨50, 102, 40, 10⟩⟩, ⟨"Total", ⟨95, 103, 30, 10⟩⟩, ⟨"Due", ⟨130, 104, 20, 10⟩⟩]

def invoice : Anchor Float := ⟨"invoice", "Invoice Total Due", 1, ⟨60, 300, 100, 12⟩, 0⟩

/-- The line is found as well if it is drawn from its end. -/
theorem locate_drawn_slope :
    slope.reverse.Perm slope ∧ Phrase.Apart slope ∧
      Phrase.build Phrase.standard slope.reverse = Phrase.build Phrase.standard slope ∧
      (locate .standard .standard invoice slope.reverse).method = .phraseSearch ∧
      (locate .standard .standard invoice slope.reverse).found = some ⟨50, 102, 100, 12⟩ := by
  have perm := List.reverse_perm slope
  have apart : Phrase.Apart slope := by
    unfold Phrase.Apart
    decide +kernel
  obtain ⟨built, method, same⟩ := locate_drawn .standard .standard invoice perm apart
  have outside : Region.kept .standard invoice.rect slope = [] :=
    List.isEmpty_iff.mp (by decide +kernel)
  have located := locate_of_kept_nil outside (.standard : CalibrationRule Float)
  rw [CalibrationRule.standard,
    Phrase.build_of_ordered (by decide +kernel) (by decide +kernel)] at located
  have searched : (locate .standard .standard invoice slope).method = .phraseSearch := by
    rw [CalibrationRule.standard, located]
    decide +kernel
  refine ⟨perm, apart, built _, method.trans searched, ?_⟩
  rw [same (by rw [searched]; decide), CalibrationRule.standard, located]
  decide +kernel

end AnchorMatch
end Docket
