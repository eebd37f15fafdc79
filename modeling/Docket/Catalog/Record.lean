import Docket.Catalog.Basic
import Docket.Query.Record
import Docket.Template.Record

/-! Records of catalogs. -/
namespace Docket
open Json

def Catalog.decoder : Decoder (Catalog Float) :=
  RecordReader.decoder "Catalog" <|
    Catalog.mk <$> .defaulted "templates" (.list Template.decoder) []
      <*> .defaulted "queries" (.list Query.decoder) []
      <*> .defaulted "global_constants" (.list Constant.decoder) []

end Docket
