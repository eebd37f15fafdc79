import Docket.Calibration.Report
import Docket.Template.Record

/-! Records of transformations, located anchors and calibration reports. -/
namespace Docket
open Json

def Transformation.decoder : Decoder (Transformation Float) :=
  RecordReader.decoder "CoordinateTransformation" <|
    Transformation.mk <$> .required "offset_x" .float <*> .required "offset_y" .float
      <*> .required "scale_x" .float <*> .required "scale_y" .float
      <*> .required "distortion" .float <*> .required "confidence" .float

def Transformation.toJson (t : Transformation Float) : Value :=
  .object [("offset_x", .real t.offsetX), ("offset_y", .real t.offsetY),
    ("scale_x", .real t.scaleX), ("scale_y", .real t.scaleY),
    ("distortion", .real t.distortion), ("confidence", .real t.confidence)]

def AnchorMatch.decoder : Decoder (AnchorMatch Float) :=
  RecordReader.decoder "AnchorMatch" <|
    AnchorMatch.mk <$> .required "name" .text <*> .required "reference_text" .text
      <*> .required "extracted_text" .text <*> .required "similarity" .float
      <*> .required "is_text_match" .boolean
      <*> .required "quality" (.variant MatchQuality.names)
      <*> .required "method" (.variant MatchMethod.names)
      <*> .required "page" .natural32 <*> .required "configured" Rect.decoder
      <*> .nullable "found" Rect.decoder <*> .required "is_outlier" .boolean

def AnchorMatch.toJson (m : AnchorMatch Float) : Value :=
  .object [("name", .string m.name), ("reference_text", .string m.reference),
    ("extracted_text", .string m.text), ("similarity", .real m.similarity),
    ("is_text_match", .bool m.isTextMatch), ("quality", .string m.quality.name),
    ("method", .string m.method.name), ("page", .natural m.page),
    ("configured", m.configured.toJson), ("found", .optional Rect.toJson m.found),
    ("is_outlier", .bool m.isOutlier)]

def CalibrationReport.decoder : Decoder (CalibrationReport Float) :=
  RecordReader.decoder "CalibrationReport" <|
    CalibrationReport.mk <$> .required "transformation" Transformation.decoder
      <*> .required "anchors" (.list AnchorMatch.decoder)
      <*> .required "extraction_rate" .float <*> .required "match_rate" .float
      <*> .required "mean_similarity" .float <*> .required "raw_confidence" .float
      <*> .optional "fallback_reason" .text
      <*> .defaulted "warnings" (.list .text) []

/-- A member that is left out when there is nothing to say. -/
def memberOf {β : Type} (name : String) (f : β → Value) : Option β → List (String × Value)
  | some b => [(name, f b)]
  | none => []

def CalibrationReport.toJson (r : CalibrationReport Float) : Value :=
  .object <| [("transformation", r.transformation.toJson),
    ("anchors", .array (r.anchors.map AnchorMatch.toJson)),
    ("extraction_rate", .real r.extractionRate), ("match_rate", .real r.matchRate),
    ("mean_similarity", .real r.meanSimilarity), ("raw_confidence", .real r.rawConfidence)] ++
    memberOf "fallback_reason" Value.string r.fallbackReason ++
    [("warnings", .texts r.warnings)]

end Docket
