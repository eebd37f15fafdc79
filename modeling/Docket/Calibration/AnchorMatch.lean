import Docket.Layout.Phrase
import Docket.Layout.Region
import Docket.Similarity
import Docket.Template.Basic

/-! Finding one anchor among the words of its page: first by the text inside its
rectangle, else by the phrases of the page. -/
namespace Docket

/-- The tier of a similarity. -/
inductive MatchQuality
  | excellent | good | fair | poor
deriving DecidableEq

namespace MatchQuality

def ofSimilarity {α : Type} [Scalar α] (s : α) : MatchQuality :=
  if Scalar.ratio 95 100 ≤ s then excellent
  else if Scalar.ratio 85 100 ≤ s then good
  else if Scalar.ratio 70 100 ≤ s then fair
  else poor

def name : MatchQuality → String
  | excellent => "excellent"
  | good => "good"
  | fair => "fair"
  | poor => "poor"

/-- The tier as reports write it. -/
def title : MatchQuality → String
  | excellent => "Excellent"
  | good => "Good"
  | fair => "Fair"
  | poor => "Poor"

def names : List (String × MatchQuality) :=
  [excellent, good, fair, poor].map fun q => (q.name, q)

end MatchQuality

/-- How the text of an anchor was found. -/
inductive MatchMethod
  | exactRegion | phraseSearch | notFound
deriving DecidableEq

namespace MatchMethod

def name : MatchMethod → String
  | exactRegion => "exact_region"
  | phraseSearch => "phrase_search"
  | notFound => "not_found"

def names : List (String × MatchMethod) :=
  [exactRegion, phraseSearch, notFound].map fun m => (m.name, m)

end MatchMethod

/-- What became of one anchor. -/
structure AnchorMatch (α : Type) where
  name : String
  reference : String
  text : String
  similarity : α
  isTextMatch : Bool
  quality : MatchQuality
  method : MatchMethod
  page : Nat
  configured : Rect α
  found : Option (Rect α)
  isOutlier : Bool

/-- Thresholds of calibration. -/
structure CalibrationRule (α : Type) where
  /-- Least similarity of a text match. -/
  similarityThreshold : α
  /-- Least confidence that is kept. -/
  confidenceFloor : α
  /-- Confidence of a calibration that is discarded. -/
  lowConfidence : α
  /-- Greatest confidence one anchor gives. -/
  singleAnchorCap : α
  /-- Least distance of two anchors that tells a scale. -/
  minPairDistance : α
  /-- Standard deviations from which on an offset is an outlier, exclusively. -/
  outlierThreshold : α
  excludeOutliers : Bool
  phrases : PhraseRule α

namespace AnchorMatch

variable {α : Type} [Scalar α]

def notFound (a : Anchor α) : AnchorMatch α :=
  ⟨a.name, a.reference, "", 0, false, .poor, .notFound, a.page, a.rect, none, false⟩

/-- Found minus configured place. -/
def offset (m : AnchorMatch α) : Option (α × α) :=
  m.found.map fun f => (f.x - m.configured.x, f.y - m.configured.y)

/-- The match with a text found somewhere. -/
def withText (m : AnchorMatch α) (threshold : α) (method : MatchMethod) (text : String)
    (similarity : α) (found : Option (Rect α)) : AnchorMatch α :=
  { m with
    text, similarity, method, found
    isTextMatch := threshold ≤ similarity
    quality := .ofSimilarity similarity }

/-- Ways in which a phrase may show an anchor, the best first. -/
inductive Tier
  | exact | contains | containedIn | fuzzy
deriving DecidableEq

def Tier.every : List Tier := [.exact, .contains, .containedIn, .fuzzy]

/-- A phrase that shows an anchor, the rectangle that it shows it in, and how alike they are. -/
structure Candidate (α : Type) where
  phrase : Phrase α
  rect : Rect α
  similarity : α

/-- The candidate a phrase gives for a tier; `reference` is the anchor's normal text. -/
def Tier.candidate? (threshold : α) (reference : String) (a : Anchor α) (p : Phrase α)
    (tier : Tier) : Option (Candidate α) :=
  let text := Text.lower p.text
  if text.isEmpty then none
  else
    let similarity := Similarity.score a.reference text
    match tier with
    | exact => if text = reference then some ⟨p, p.box, 1⟩ else none
    | contains =>
      if Text.contains text reference then
        some ⟨p, (p.locate reference).getD p.box, similarity⟩
      else none
    | containedIn =>
      if Text.contains reference text then some ⟨p, p.box, similarity⟩ else none
    | fuzzy => if threshold ≤ similarity then some ⟨p, p.box, similarity⟩ else none

/-- The candidate nearest to a rectangle, the first of equals. -/
def nearest (rect : Rect α) : List (Candidate α) → Option (Candidate α)
  | [] => none
  | c :: cs => some <| cs.foldl (fun best next =>
      if next.rect.originDistance rect < best.rect.originDistance rect then next else best) c

/-- The best candidate among phrases: of the first tier that has any, the nearest. -/
def search (rule : CalibrationRule α) (a : Anchor α) (phrases : List (Phrase α)) :
    Option (Candidate α) :=
  let reference := Similarity.normal a.reference
  if reference.isEmpty then none
  else Tier.every.findSome? fun tier =>
    nearest a.rect (phrases.filterMap fun p =>
      tier.candidate? rule.similarityThreshold reference a p)

/-- Finds an anchor among the words of its page. -/
def locate (rule : CalibrationRule α) (gather : RegionRule α) (a : Anchor α)
    (ws : List (Word α)) : AnchorMatch α :=
  let region := Region.collect gather a.rect ws
  let base := notFound a
  if !region.isBlank then
    base.withText rule.similarityThreshold .exactRegion region.text
      (Similarity.score a.reference region.text) region.box
  else
    match search rule a (Phrase.build rule.phrases ws) with
    | some c =>
      base.withText rule.similarityThreshold .phraseSearch c.phrase.text c.similarity (some c.rect)
    | none => base

end AnchorMatch

def CalibrationRule.standard {α : Type} [Scalar α] : CalibrationRule α where
  similarityThreshold := Scalar.ratio 7 10
  confidenceFloor := Scalar.ratio 5 10
  lowConfidence := Scalar.ratio 1 10
  singleAnchorCap := Scalar.ratio 7 10
  minPairDistance := Scalar.ofNat 10
  outlierThreshold := Scalar.ofNat 2
  excludeOutliers := false
  phrases := Phrase.standard

end Docket
