import Docket.Proofs.Calibration.Searching
import Docket.Proofs.Similarity.Scoring

/-! How alike an anchor and the phrase found for it are. Every way of showing the anchor but the last
has one text inside the other, white space at the ends apart, which scores at least as much as
containment does; the last asks for the threshold. Only the search does not ask for more than some
text: a phrase of nothing but white space is found inside a reference with the same white space
between its words, and scores nothing. -/
namespace Docket

namespace Similarity

open Double

theorem isNaN_containment : (containment : Float).isNaN = false := by decide +kernel

theorem isNumber_iff (x : Float) : Scalar.isNumber x = true ↔ x.isNaN = false := by
  rw [Scalar.isNumber, beq_iff_rank]
  simp only [and_true, and_self]

theorem containment_le_self : (containment : Float) ≤ containment :=
  (le_iff_rank _ _).mpr ⟨isNaN_containment, isNaN_containment, le_refl _⟩

theorem containment_le_max (x : Float) : containment ≤ Scalar.max x containment := by
  unfold Scalar.max
  rw [if_pos ((isNumber_iff _).mpr isNaN_containment)]
  split
  · rename_i less
    exact float_le_of_lt less
  · exact containment_le_self

/-- What scores as much as containment or as the threshold scores as much as the lesser of them. -/
theorem min_containment_le {threshold s : Float} (enough : containment ≤ s ∨ threshold ≤ s) :
    Scalar.min containment threshold ≤ s := by
  unfold Scalar.min
  split
  · rename_i number
    have number := (isNumber_iff _).mp number
    split
    · rename_i less
      exact enough.elim id (float_le_trans (float_le_of_lt less))
    · rename_i least
      exact enough.elim (float_le_trans (float_le_of_not_lt isNaN_containment number least)) id
  · rename_i none
    refine enough.resolve_right fun reached => none ?_
    exact (isNumber_iff _).mpr ((le_iff_rank _ _).mp reached).1

end Similarity

namespace AnchorMatch

section Any
variable {α : Type} [Scalar α]

theorem mem_of_nearest {rect : Rect α} {cs : List (Candidate α)} {c : Candidate α}
    (found : nearest rect cs = some c) : c ∈ cs := by
  cases cs with
  | nil => cases found
  | cons first rest =>
    cases found
    induction rest using List.reverseRecOn with
    | nil => exact List.mem_singleton_self _
    | append_singleton rest next ih =>
      rw [List.foldl_append, List.foldl_cons, List.foldl_nil, ← List.cons_append]
      split
      · exact List.mem_append_right _ List.mem_cons_self
      · exact List.mem_append_left _ ih

/-- A phrase that shows an anchor is its text, or has its own score and is inside the anchor's text
or around it or scores enough. -/
theorem Tier.Asks.similarity {threshold : α} {a : Anchor α} {p : Phrase α} {tier : Tier}
    (asks : tier.Asks threshold a (Text.lower p.text)) :
    (Text.lower p.text = Similarity.normal a.reference ∧ (tier.report a p).similarity = 1) ∨
      (tier.report a p).similarity = Similarity.score a.reference (Text.lower p.text) ∧
        ((Similarity.normal a.reference).toList <:+: (Text.lower p.text).toList ∨
          (Text.lower p.text).toList <:+: (Similarity.normal a.reference).toList ∨
          threshold ≤ Similarity.score a.reference (Text.lower p.text)) := by
  cases tier <;> simp only [Asks, report] at asks ⊢
  case exact => exact .inl ⟨asks, trivial⟩
  case contains => exact .inr ⟨trivial, .inl asks⟩
  case containedIn => exact .inr ⟨trivial, .inr (.inl asks)⟩
  case fuzzy => exact .inr ⟨trivial, .inr (.inr asks)⟩

/-- Whatever is found shows the anchor in some way, and the anchor has a text. -/
theorem search_shows {rule : CalibrationRule α} {a : Anchor α} {phrases : List (Phrase α)}
    {c : Candidate α} (found : search rule a phrases = some c) :
    Text.isBlankText a.reference = false ∧ ∃ tier : Tier,
      tier.Shows rule.similarityThreshold a c.phrase ∧ tier.report a c.phrase = c := by
  have text : Text.isBlankText a.reference = false := by
    refine Bool.eq_false_iff.mpr fun blank => ?_
    rw [search, Similarity.normal_eq_empty_iff.mpr blank] at found
    cases found
  rw [search_eq text] at found
  obtain ⟨-, tier, -, -, best, -⟩ := List.findSome?_eq_some_iff.mp found
  obtain ⟨p, -, shows, rfl⟩ := mem_shown.mp (mem_of_nearest best)
  have same : (tier.report a p).phrase = p := by cases tier <;> rfl
  exact ⟨text, tier, by rwa [same], by rw [same]⟩

theorem locate_of_searched {rule : CalibrationRule α} {gather : RegionRule α} {a : Anchor α}
    {ws : List (Word α)} (searched : (locate rule gather a ws).method = .phraseSearch) :
    ∃ c, search rule a (Phrase.build rule.phrases ws) = some c ∧
      locate rule gather a ws = (notFound a).withText rule.similarityThreshold .phraseSearch
        c.phrase.text c.similarity (some c.rect) := by
  unfold locate at searched ⊢
  dsimp only at searched ⊢
  split at searched
  · cases searched
  · rename_i blank
    split at searched
    · rename_i c found
      exact ⟨c, found, by rw [if_neg blank]⟩
    · cases searched

/-- Words outside the place of an anchor that come in order are cut to phrases as they stand. -/
theorem locate_of_ordered (rule : CalibrationRule α) {gather : RegionRule α} {a : Anchor α}
    {ws : List (Word α)} (outside : Region.kept gather a.rect ws = [])
    (fromTop : ws.Pairwise fun a b => Phrase.byTop a b = true)
    (fromLeft : ∀ line ∈ Phrase.cutBetween (Phrase.onLine rule.phrases) ws,
      line.Pairwise fun a b => Phrase.byLeft a b = true) :
    locate rule gather a ws =
      ((search rule a ((Phrase.cutBetween (Phrase.onLine rule.phrases) ws).flatMap fun line =>
        (Phrase.cutBetween (Phrase.continues rule.phrases) line).filterMap Phrase.ofWords?)).map
        fun c => (notFound a).withText rule.similarityThreshold .phraseSearch c.phrase.text
          c.similarity (some c.rect)).getD (notFound a) := by
  rw [locate_of_kept_nil outside, Phrase.build_of_ordered fromTop fromLeft]
  cases search rule a _ <;> rfl

end Any

section Doubles

/-- Of two texts that are not blank, one inside the other but for white space at the ends, the score is
that of containment at least. -/
theorem containment_le_score {a : Anchor Float} {p : Phrase Float}
    (text : Text.isBlankText a.reference = false) (text' : Text.isBlankText p.text = false)
    (inside : (Similarity.normal a.reference).toList <:+: (Text.lower p.text).toList ∨
      (Text.lower p.text).toList <:+: (Similarity.normal a.reference).toList) :
    Similarity.containment ≤ (Similarity.score a.reference (Text.lower p.text) : Float) := by
  have some (s : String) (text : Text.isBlankText s = false) : Similarity.normal s ≠ "" :=
    mt Similarity.normal_eq_empty_iff.mp (Bool.eq_false_iff.mp text)
  have trimmed := inside.imp Text.trim_infix_trim Text.trim_infix_trim
  rw [Similarity.trim_normal, Similarity.trim_lower, ← Text.contains_iff, ← Text.contains_iff]
    at trimmed
  rw [Similarity.score, Similarity.normal_lower]
  exact Similarity.containment_le_ofNormal (by decide +kernel) Similarity.containment_le_max
    (some _ text) (some _ text') trimmed.symm

theorem Tier.le_similarity_report {threshold : Float} {a : Anchor Float} {p : Phrase Float}
    {tier : Tier} (asks : tier.Asks threshold a (Text.lower p.text))
    (text : Text.isBlankText a.reference = false) (text' : Text.isBlankText p.text = false) :
    Similarity.containment ≤ (tier.report a p).similarity ∨
      threshold ≤ (tier.report a p).similarity := by
  rcases asks.similarity with ⟨-, whole⟩ | ⟨scored, around | within | reached⟩
  · rw [whole]
    exact .inl (by decide +kernel)
  · rw [scored]
    exact .inl (containment_le_score text text' (.inl around))
  · rw [scored]
    exact .inl (containment_le_score text text' (.inr within))
  · rw [scored]
    exact .inr reached

/-- A blank phrase shows an anchor only as a part of the reference, or where no likeness is asked. -/
theorem Tier.similarity_report_blank {threshold : Float} {a : Anchor Float} {p : Phrase Float}
    {tier : Tier} (asks : tier.Asks threshold a (Text.lower p.text))
    (text : Text.isBlankText a.reference = false) (blank : Text.isBlankText p.text = true) :
    (tier.report a p).similarity = 0 ∧
      (threshold ≤ 0 ∨ p.text.toList <:+: (Similarity.normal a.reference).toList) := by
  have nothing : (Similarity.score a.reference p.text : Float) = 0 :=
    Similarity.score_of_blank (.inr blank)
  have solid := Similarity.isBlankText_normal a.reference
  rw [text] at solid
  have known := asks.similarity
  rw [Text.lower_of_blank blank, nothing] at known
  rcases known with ⟨same, -⟩ | ⟨scored, around | within | reached⟩
  · rw [← same, blank] at solid
    cases solid
  · rw [Text.isBlankText_of_infix around blank] at solid
    cases solid
  · exact ⟨scored, .inr within⟩
  · exact ⟨scored, .inl reached⟩

/-- What a search reports is like the anchor: it is some text, as like as containment or the threshold
asks, and a match wherever the threshold asks no more than containment gives. -/
structure Convincing (threshold : Float) (m : AnchorMatch Float) : Prop where
  text : Text.isBlankText m.text = false
  similar : Scalar.min Similarity.containment threshold ≤ m.similarity
  matched : threshold ≤ Similarity.containment → m.isTextMatch = true

/-- What is found by searching is like the anchor exactly if it is not blank. A blank phrase is found
if it is a part of the reference, or if the threshold lets everything pass. -/
theorem locate_convincing_iff (rule : CalibrationRule Float) (gather : RegionRule Float)
    (a : Anchor Float) (ws : List (Word Float))
    (searched : (locate rule gather a ws).method = .phraseSearch) :
    (Convincing rule.similarityThreshold (locate rule gather a ws) ↔
      Text.isBlankText (locate rule gather a ws).text = false) ∧
    (Text.isBlankText (locate rule gather a ws).text = true →
      (locate rule gather a ws).similarity = 0 ∧ (locate rule gather a ws).text ≠ "" ∧
        (rule.similarityThreshold ≤ 0 ∨ (locate rule gather a ws).text.toList <:+:
          (Similarity.normal a.reference).toList)) := by
  obtain ⟨c, found, told⟩ := locate_of_searched searched
  obtain ⟨text, tier, ⟨some, asks⟩, report⟩ := search_shows found
  have similar : (tier.report a c.phrase).similarity = c.similarity := congrArg _ report
  rw [told]
  refine ⟨⟨Convincing.text, fun text' => ?_⟩, fun blank => ?_⟩
  · have enough := tier.le_similarity_report asks text text'
    rw [similar] at enough
    refine ⟨text', Similarity.min_containment_le enough, fun low => decide_eq_true ?_⟩
    exact enough.elim (Double.float_le_trans low) id
  · have nothing := tier.similarity_report_blank asks text blank
    rw [similar] at nothing
    refine ⟨nothing.1, fun empty => some ?_, nothing.2⟩
    have empty : c.phrase.text = "" := empty
    rw [empty]
    rfl

/-- The total in a line with another word is found for its anchor, and is like it. -/
theorem locate_convincing_totals :
    (locate .standard .standard total totals).method = .phraseSearch ∧
      Convincing (CalibrationRule.standard : CalibrationRule Float).similarityThreshold
        (locate .standard .standard total totals) := by
  have outside : Region.kept .standard total.rect totals = [] :=
    List.isEmpty_iff.mp (by decide +kernel)
  have located := locate_of_ordered .standard outside (by decide +kernel) (by decide +kernel)
  have searched : (locate .standard .standard total totals).method = .phraseSearch := by
    rw [located]
    decide +kernel
  have text : Text.isBlankText (locate .standard .standard total totals).text = false := by
    rw [located]
    decide +kernel
  exact ⟨searched, (locate_convincing_iff .standard .standard total totals searched).1.mpr text⟩

/-- A word of one no-break space, away from the place of an anchor with one in its text. -/
def gap : List (Word Float) := [⟨"\u00a0", ⟨300, 400, 5, 10⟩⟩]

def due : Anchor Float := ⟨"due", "Total\u00a0due", 1, ⟨100, 100, 40, 12⟩, 0⟩

/-- The no-break space is found for the anchor, and it is not like it. -/
theorem gap_not_convincing :
    (locate .standard .standard due gap).method = .phraseSearch ∧
      ¬ Convincing (CalibrationRule.standard : CalibrationRule Float).similarityThreshold
        (locate .standard .standard due gap) := by
  have outside : Region.kept .standard due.rect gap = [] :=
    List.isEmpty_iff.mp (by decide +kernel)
  have located := locate_of_ordered .standard outside (by decide +kernel) (by decide +kernel)
  have found : (locate .standard .standard due gap).method = .phraseSearch ∧
      Text.isBlankText (locate .standard .standard due gap).text = true := by
    rw [located]
    decide +kernel
  refine ⟨found.1, fun convincing => ?_⟩
  have some := convincing.text
  rw [found.2] at some
  cases some

end Doubles

end AnchorMatch
end Docket
