import Docket.Calibration.AnchorMatch
import Docket.Calibration.Statistics
import Docket.Calibration.Transformation
import Docket.Page.Basic

/-! Calibration of a document: the drift that its anchors show, how far it is trusted,
and the fallback to no drift at all. -/
namespace Docket

/-- Why a calibration is discarded. -/
inductive Fallback (α : Type)
  | nothingMatched
  | lowConfidence (confidence floor : α)

def Fallback.message {α : Type} [Scalar α] : Fallback α → String
  | nothingMatched => "no anchor matched its reference text"
  | lowConfidence c floor =>
    s!"confidence {Scalar.twoPlaces c} below floor {Scalar.twoPlaces floor}"

structure CalibrationReport (α : Type) where
  transformation : Transformation α
  anchors : List (AnchorMatch α)
  /-- Part of the anchors that gave any text. -/
  extractionRate : α
  /-- Part of the anchors that matched. -/
  matchRate : α
  /-- Mean similarity of the anchors that gave text. -/
  meanSimilarity : α
  /-- Confidence before caps and fallback. -/
  rawConfidence : α
  fallbackReason : Option String
  warnings : List String

namespace CalibrationReport

variable {α : Type} [Scalar α]

/-- The report of a template without anchors. -/
def uncalibrated : CalibrationReport α := ⟨.identity, [], 0, 0, 0, 1, none, []⟩

def confidence (r : CalibrationReport α) : α := r.transformation.confidence

def matchedCount (r : CalibrationReport α) : Nat := (r.anchors.filter (·.isTextMatch)).length

def outliers (r : CalibrationReport α) : List (AnchorMatch α) := r.anchors.filter (·.isOutlier)

/-- An anchor that matched and has a place. -/
def counts (m : AnchorMatch α) : Bool := m.isTextMatch && m.found.isSome

def gaveText (m : AnchorMatch α) : Bool := !Text.isBlankText m.text

/-- The confidence of rates and mean similarity. -/
def weigh (extractionRate matchRate meanSimilarity : α) : α :=
  extractionRate * Scalar.ratio 3 10 + matchRate * Scalar.ratio 4 10 +
    meanSimilarity * Scalar.ratio 3 10

/-- Marks the counting anchors by the flags given for them in order; a mark already there stays. -/
def mark : List (AnchorMatch α) → List Bool → List (AnchorMatch α)
  | [], _ => []
  | m :: ms, flags =>
    if counts m then
      match flags with
      | flag :: flags => { m with isOutlier := m.isOutlier || flag } :: mark ms flags
      | [] => m :: ms
    else m :: mark ms flags

/-- The counting anchors that the estimate uses: without the flagged ones if the rule leaves those
out, but never none. -/
def used (rule : CalibrationRule α) (matched : List (AnchorMatch α)) (flags : List Bool) :
    List (AnchorMatch α) :=
  let kept := (matched.zip flags).filterMap fun (m, flag) =>
    if rule.excludeOutliers && flag then none else some m
  if kept.isEmpty then matched else kept

/-- Configured and found coordinates of anchors on one axis. -/
def places (axis : Rect α → α) (ms : List (AnchorMatch α)) : List (α × α) :=
  ms.filterMap fun m => m.found.map fun f => (axis m.configured, axis f)

/-- The scale that anchors show on one axis; one anchor shows none. -/
def scaleOn (rule : CalibrationRule α) (axis : Rect α → α) (ms : List (AnchorMatch α)) : α :=
  if 2 ≤ ms.length then Statistics.scale rule.minPairDistance (places axis ms) else 1

/-- The reason to discard an estimate. -/
def fallback? (rule : CalibrationRule α) (matched : Nat) (confidence : α) :
    Option (Fallback α) :=
  if matched = 0 then some .nothingMatched
  else if confidence < rule.confidenceFloor then
    some (.lowConfidence confidence rule.confidenceFloor)
  else none

/-- Replaces the transformation by none for a reason. -/
def discard (rule : CalibrationRule α) (reason : Fallback α) (r : CalibrationReport α) :
    CalibrationReport α :=
  { r with
    transformation := .unmoved rule.lowConfidence
    fallbackReason := some reason.message
    warnings := r.warnings ++ [s!"Calibration discarded: {reason.message}"] }

def outlierWarning (m : AnchorMatch α) : String := s!"Anchor {m.name} is an outlier"

/-- The drift that located anchors show. -/
def estimate (rule : CalibrationRule α) (anchors : List (AnchorMatch α))
    (warnings : List String) : CalibrationReport α :=
  if anchors.isEmpty then uncalibrated
  else
    let total : α := Scalar.ofNat anchors.length
    let similarities := (anchors.filter gaveText).map (·.similarity)
    let matched := anchors.filter counts
    let extractionRate := Scalar.ofNat similarities.length / total
    let matchRate := Scalar.ofNat matched.length / total
    let meanSimilarity := Statistics.mean similarities
    let raw := weigh extractionRate matchRate meanSimilarity
    let offsets := matched.filterMap (·.offset)
    let flags := Statistics.outliers rule.outlierThreshold offsets
    let flagged := (matched.zip flags).filterMap fun (m, flag) => if flag then some m else none
    let basis := used rule matched flags
    let shifts := basis.filterMap (·.offset)
    let confidence := if matched.length = 1 then Scalar.min raw rule.singleAnchorCap else raw
    let report : CalibrationReport α :=
      { transformation :=
          { offsetX := Statistics.mean (shifts.map Prod.fst)
            offsetY := Statistics.mean (shifts.map Prod.snd)
            scaleX := scaleOn rule (·.x) basis
            scaleY := scaleOn rule (·.y) basis
            distortion := Statistics.distortion offsets
            confidence }
        anchors := mark anchors flags
        extractionRate, matchRate, meanSimilarity
        rawConfidence := raw
        fallbackReason := none
        warnings := warnings ++ flagged.map outlierWarning }
    match fallback? rule matched.length confidence with
    | some reason => report.discard rule reason
    | none => report

/-- Pages asked for so far, each once, and the warnings of those that failed. -/
structure Visits (α : Type) where
  pages : List (Nat × Option (List (Word α)))
  warnings : List String

/-- The words of a page, asked for once. -/
def Visits.ask (source : PageSource α) (v : Visits α) (page : Nat) :
    Option (List (Word α)) × Visits α :=
  match v.pages.lookup page with
  | some words => (words, v)
  | none =>
    match source.words page with
    | .ok words => (some words, { v with pages := (page, some words) :: v.pages })
    | .error e =>
      (none, ⟨(page, none) :: v.pages,
        v.warnings ++ [s!"Anchor page {page} unavailable: {e.message}"]⟩)

/-- Locates anchors one by one. -/
def locateAll (rule : CalibrationRule α) (gather : RegionRule α) (source : PageSource α) :
    List (Anchor α) → Visits α → List (AnchorMatch α) × Visits α
  | [], v => ([], v)
  | a :: rest, v =>
    let (words, v) := v.ask source a.page
    let m := match words with
      | some ws => AnchorMatch.locate rule gather a ws
      | none => .notFound a
    let (ms, v) := locateAll rule gather source rest v
    (m :: ms, v)

/-- Calibrates a document by the anchors of a template. -/
def calibrate (rule : CalibrationRule α) (gather : RegionRule α) (t : Template α)
    (source : PageSource α) : CalibrationReport α :=
  let (ms, visits) := locateAll rule gather source t.orderedAnchors ⟨[], []⟩
  estimate rule ms visits.warnings

end CalibrationReport
end Docket
