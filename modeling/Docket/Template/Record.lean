import Docket.Layout.Record
import Docket.Template.Basic

/-! Records of templates. Only the identifier of a template is required, and a field
without a declared type is a number. -/
namespace Docket
open Json

def PageSize.decoder : Decoder (PageSize Float) :=
  RecordReader.decoder "PageSize" <|
    PageSize.mk <$> .required "width" .float <*> .required "height" .float

def PageSize.toJson (s : PageSize Float) : Value :=
  .object [("width", .real s.width), ("height", .real s.height)]

def FieldType.decoder : Decoder FieldType := .variant FieldType.names

def Field.decoder : Decoder (Field Float) :=
  RecordReader.decoder "FieldMapping" <|
    Field.mk <$> .required "name" .text <*> .required "page" .natural32 <*>
      .required "rect" Rect.decoder <*> .defaulted "data_type" FieldType.decoder .number <*>
      .defaulted "order" .natural32 0

def Field.toJson (f : Field Float) : Value :=
  .object [("name", .string f.name), ("page", .natural f.page), ("rect", f.rect.toJson),
    ("data_type", .string f.type.name), ("order", .natural f.order)]

def Anchor.decoder : Decoder (Anchor Float) :=
  RecordReader.decoder "Anchor" <|
    Anchor.mk <$> .required "name" .text <*> .required "reference_text" .text <*>
      .required "page" .natural32 <*> .required "rect" Rect.decoder <*>
      .defaulted "order" .natural32 0

def Anchor.toJson (a : Anchor Float) : Value :=
  .object [("name", .string a.name), ("reference_text", .string a.reference),
    ("page", .natural a.page), ("rect", a.rect.toJson), ("order", .natural a.order)]

def Template.decoder : Decoder (Template Float) :=
  RecordReader.decoder "Template" <|
    Template.mk <$> .required "id" .text <*> .defaulted "name" .text "" <*>
      .defaulted "prefix" .text "" <*>
      .defaulted "page_size" PageSize.decoder PageSize.standard <*>
      .defaulted "fields" (.list Field.decoder) [] <*>
      .defaulted "anchors" (.list Anchor.decoder) []

def Template.toJson (t : Template Float) : Value :=
  .object [("id", .string t.id), ("name", .string t.name), ("prefix", .string t.namePrefix),
    ("page_size", t.pageSize.toJson), ("fields", .array (t.fields.map Field.toJson)),
    ("anchors", .array (t.anchors.map Anchor.toJson))]

end Docket
