import Docket.Layout.Record
import Docket.Settings.Basic

/-! Records of settings. Everything may be left out and then has its standard value. -/
namespace Docket
open Json

def CalibrationRule.decoder : Decoder (CalibrationRule Float) :=
  let std : CalibrationRule Float := .standard
  RecordReader.decoder "CalibrationConfig" <|
    CalibrationRule.mk <$> .defaulted "similarity_threshold" .float std.similarityThreshold
      <*> .defaulted "confidence_floor" .float std.confidenceFloor
      <*> .defaulted "low_confidence_value" .float std.lowConfidence
      <*> .defaulted "single_anchor_confidence_cap" .float std.singleAnchorCap
      <*> .defaulted "min_pair_distance" .float std.minPairDistance
      <*> .defaulted "outlier_z_threshold" .float std.outlierThreshold
      <*> .defaulted "exclude_outliers" .boolean std.excludeOutliers
      <*> .defaulted "phrases" PhraseRule.decoder std.phrases

def CalibrationRule.toJson (r : CalibrationRule Float) : Value :=
  .object [("similarity_threshold", .real r.similarityThreshold),
    ("confidence_floor", .real r.confidenceFloor), ("low_confidence_value", .real r.lowConfidence),
    ("single_anchor_confidence_cap", .real r.singleAnchorCap),
    ("min_pair_distance", .real r.minPairDistance),
    ("outlier_z_threshold", .real r.outlierThreshold),
    ("exclude_outliers", .bool r.excludeOutliers), ("phrases", r.phrases.toJson)]

def Pipeline.decoder : Decoder Pipeline :=
  let std := Pipeline.standard
  RecordReader.decoder "PipelineConfig" <|
    Pipeline.mk <$> .defaulted "intake_dir" .path std.intake
      <*> .defaulted "output_dir" .path std.output
      <*> .defaulted "catalog" .path std.catalog
      <*> .defaulted "file_pattern" .text std.filePattern
      <*> .defaulted "poll_interval_secs" .natural64 std.pollSeconds
      <*> .defaulted "lock_stale_minutes" .natural64 std.staleMinutes

def Pipeline.toJson (p : Pipeline) : Value :=
  .object [("intake_dir", .string p.intake), ("output_dir", .string p.output),
    ("catalog", .string p.catalog), ("file_pattern", .string p.filePattern),
    ("poll_interval_secs", .natural p.pollSeconds), ("lock_stale_minutes", .natural p.staleMinutes)]

def Settings.decoder : Decoder (Settings Float) :=
  RecordReader.decoder "DocfieldConfig" <|
    Settings.mk <$> .defaulted "extraction" RegionRule.decoder .standard
      <*> .defaulted "calibration" CalibrationRule.decoder .standard
      <*> .defaulted "pipeline" Pipeline.decoder .standard

def Settings.toJson (s : Settings Float) : Value :=
  .object [("extraction", s.extraction.toJson), ("calibration", s.calibration.toJson),
    ("pipeline", s.pipeline.toJson)]

end Docket
