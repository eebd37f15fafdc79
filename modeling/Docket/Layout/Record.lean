import Docket.Json.Record
import Docket.Layout.Region
import Docket.Layout.Phrase

/-! Records of rectangles, words, regions and their rules. -/
namespace Docket
open Json

def Rect.reader : RecordReader (Rect Float) :=
  Rect.mk <$> .required "x" .float <*> .required "y" .float <*>
    .required "width" .float <*> .required "height" .float

def Rect.decoder : Decoder (Rect Float) := Rect.reader.decoder "Rect"

def Rect.members (r : Rect Float) : List (String × Value) :=
  [("x", .real r.x), ("y", .real r.y), ("width", .real r.width), ("height", .real r.height)]

def Rect.toJson (r : Rect Float) : Value := .object r.members

/-- A word is a text and a rectangle in one record. -/
def Word.decoder : Decoder (Word Float) :=
  RecordReader.decoder "ExtractedWord" <| Word.mk <$> .required "text" .text <*> Rect.reader

def Word.toJson (w : Word Float) : Value := .object (("text", .string w.text) :: w.box.members)

def Word.listDecoder : Decoder (List (Word Float)) := .list Word.decoder

def Region.toJson (r : Region Float) : Value :=
  .object [("text", .string r.text), ("word_count", .natural r.wordCount),
    ("bbox", .optional Rect.toJson r.box)]

/-- Rules of regions are read with the standard ones for what is absent. -/
def RegionRule.decoder : Decoder (RegionRule Float) :=
  RecordReader.decoder "ExtractionConfig" <|
    RegionRule.mk <$> .defaulted "min_word_coverage" .float RegionRule.standard.minCoverage
      <*> .defaulted "line_bucket" .float RegionRule.standard.lineHeight

def RegionRule.toJson (r : RegionRule Float) : Value :=
  .object [("min_word_coverage", .real r.minCoverage), ("line_bucket", .real r.lineHeight)]

def PhraseRule.decoder : Decoder (PhraseRule Float) :=
  let std : PhraseRule Float := Phrase.standard
  RecordReader.decoder "PhraseConfig" <|
    PhraseRule.mk <$> .defaulted "same_line_tolerance" .float std.lineTolerance
      <*> .defaulted "min_word_gap" .float std.minGap
      <*> .defaulted "max_word_gap" .float std.maxGap
      <*> .defaulted "break_gap" .float std.breakGap
      <*> .defaulted "break_shift" .float std.breakShift

def PhraseRule.toJson (r : PhraseRule Float) : Value :=
  .object [("same_line_tolerance", .real r.lineTolerance), ("min_word_gap", .real r.minGap),
    ("max_word_gap", .real r.maxGap), ("break_gap", .real r.breakGap),
    ("break_shift", .real r.breakShift)]

end Docket
