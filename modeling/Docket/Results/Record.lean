import Docket.Calibration.Record
import Docket.Extraction.Result
import Docket.Period
import Docket.Query.Record
import Docket.Template.Record

/-! Records of extractions and of processed documents. -/
namespace Docket
open Json

def FieldDetail.decoder : Decoder (FieldDetail Float) :=
  RecordReader.decoder "FieldDetail" <|
    FieldDetail.mk <$> .required "name" .text <*> .required "page" .natural32
      <*> .required "data_type" FieldType.decoder <*> .required "configured" Rect.decoder
      <*> .required "effective" Rect.decoder <*> .required "raw_text" .text
      <*> .required "word_count" .count <*> .required "found" .boolean

def FieldDetail.toJson (d : FieldDetail Float) : Value :=
  .object [("name", .string d.name), ("page", .natural d.page),
    ("data_type", .string d.type.name), ("configured", d.configured.toJson),
    ("effective", d.effective.toJson), ("raw_text", .string d.text),
    ("word_count", .natural d.wordCount), ("found", .bool d.found)]

def DocumentKind.decoder : Decoder DocumentKind := .variant DocumentKind.names

def Extraction.decoder : Decoder (Extraction Float) :=
  RecordReader.decoder "ExtractionResult" <|
    Extraction.mk <$> .required "template_id" .text <*> .required "success" .boolean
      <*> .optional "document_kind" DocumentKind.decoder
      <*> .required "fields" (.dictionary (.option FieldValue.decoder))
      <*> .required "field_details" (.list FieldDetail.decoder)
      <*> .required "calibration" CalibrationReport.decoder
      <*> .defaulted "warnings" (.list .text) []
      <*> .required "processing_time_ms" .natural64

def Extraction.toJson (e : Extraction Float) : Value :=
  .object <| [("template_id", .string e.templateId), ("success", .bool e.success)] ++
    memberOf "document_kind" (fun k => Value.string k.name) e.kind ++
    [("fields", .object (e.fields.map fun (name, v) => (name, .optional FieldValue.toJson v))),
      ("field_details", .array (e.details.map FieldDetail.toJson)),
      ("calibration", e.calibration.toJson), ("warnings", .texts e.warnings),
      ("processing_time_ms", .natural e.milliseconds)]

/-- All that is kept of one document. -/
structure DocumentRecord where
  document : String
  templateId : String
  period : Option Period
  processed : Timestamp
  /-- Absent if the document could not be opened. -/
  extraction : Option (Extraction Float)
  queries : List Calculation
  /-- Why the document failed. -/
  error : Option String

def Period.decoder : Decoder Period :=
  RecordReader.decoder "Period" <|
    Period.mk <$> .required "year" .integer32 <*> .required "month" .natural32

def Period.toJson (p : Period) : Value :=
  .object [("year", .number (.whole p.year)), ("month", .natural p.month)]

def Timestamp.decoder : Decoder Timestamp :=
  .string "an RFC 3339 formatted date and time string" fun s =>
    (Timestamp.read s).mapError fun e => .refused e.message

namespace DocumentRecord

/-- The record of a document that could not be opened. -/
def failed (document templateId : String) (period : Option Period) (processed : Timestamp)
    (error : String) : DocumentRecord :=
  ⟨document, templateId, period, processed, none, [], some error⟩

/-- Whether the document was opened and gave what was wanted. -/
def isSuccess (r : DocumentRecord) : Bool := r.error.isNone && r.extraction.any (·.success)

def fileName (r : DocumentRecord) : String := (Path.fileName? r.document).getD ""

def decoder : Decoder DocumentRecord :=
  RecordReader.decoder "DocumentRecord" <|
    mk <$> .required "document" .path <*> .required "template_id" .text
      <*> .optional "period" Period.decoder <*> .required "processed_at" Timestamp.decoder
      <*> .optional "extraction" Extraction.decoder
      <*> .defaulted "queries" (.list Calculation.decoder) []
      <*> .optional "error" .text

def toJson (r : DocumentRecord) : Value :=
  .object <| [("document", .string r.document), ("template_id", .string r.templateId)] ++
    memberOf "period" Period.toJson r.period ++
    [("processed_at", .string r.processed.display)] ++
    memberOf "extraction" Extraction.toJson r.extraction ++
    [("queries", .array (r.queries.map Calculation.toJson))] ++
    memberOf "error" Value.string r.error

end DocumentRecord
end Docket
