import Docket.Calibration.Record
import Docket.Query.Calculation

/-! Records of queries and calculations. -/
namespace Docket
open Json Formula

def Output.decoder : Decoder Output :=
  RecordReader.decoder "QueryOutput" <|
    Output.mk <$> .required "name" .text <*> .required "formula" .text
      <*> .defaulted "data_type" (.variant OutputType.names) .number
      <*> .defaulted "execution_order" .natural32 0

def Output.toJson (o : Output) : Value :=
  .object [("name", .string o.name), ("formula", .string o.formula),
    ("data_type", .string o.type.name), ("execution_order", .natural o.order)]

def Constant.decoder : Decoder Constant :=
  RecordReader.decoder "QueryConstant" <|
    Constant.mk <$> .required "name" .text <*> .required "default_value" .float
      <*> .defaulted "scope" (.variant ConstantScope.names) .own

def Constant.toJson (c : Constant) : Value :=
  .object [("name", .string c.name), ("default_value", .real c.value),
    ("scope", .string c.scope.name)]

def Query.decoder : Decoder Query :=
  RecordReader.decoder "Query" <|
    Query.mk <$> .required "id" .text <*> .defaulted "name" .text ""
      <*> .optional "template_id" .text
      <*> .defaulted "outputs" (.list Output.decoder) []
      <*> .defaulted "constants" (.list Constant.decoder) []

def Query.toJson (q : Query) : Value :=
  .object <| [("id", .string q.id), ("name", .string q.name)] ++
    memberOf "template_id" Value.string q.templateId ++
    [("outputs", .array (q.outputs.map Output.toJson)),
      ("constants", .array (q.constants.map Constant.toJson))]

/-- Names with values, as an object. -/
def Formula.Names.decoder : Decoder Names := Names.ofList <$> .dictionary .float

def Formula.Names.toJson (ns : Names) : Value := .object (ns.entries.map fun (k, x) => (k, .real x))

def Formula.Inputs.decoder : Decoder Inputs :=
  RecordReader.decoder "InputContext" <|
    Inputs.mk <$> .defaulted "fields" Names.decoder .empty
      <*> .defaulted "variables" Names.decoder .empty
      <*> .defaulted "constants" Names.decoder .empty

def Formula.Inputs.toJson (i : Inputs) : Value :=
  .object [("fields", i.fields.toJson), ("variables", i.parameters.toJson),
    ("constants", i.constants.toJson)]

def Calculation.decoder : Decoder Calculation :=
  RecordReader.decoder "CalculationResult" <|
    Calculation.mk <$> .required "query_id" .text
      <*> .required "values" (.dictionary (.option .float))
      <*> .required "formulas" (.dictionary .text)
      <*> .defaulted "warnings" (.list .text) []
      <*> .defaulted "errors" (.dictionary .text) []
      <*> .optional "error" .text
      <*> .required "execution_time_ms" .natural64

def Calculation.toJson (c : Calculation) : Value :=
  .object <| [("query_id", .string c.queryId),
    ("values", .object (c.values.map fun (k, v) => (k, .optional Value.real v))),
    ("formulas", .object (c.formulas.map fun (k, s) => (k, .string s))),
    ("warnings", .texts c.warnings),
    ("errors", .object (c.errors.map fun (k, s) => (k, .string s)))] ++
    memberOf "error" Value.string c.error ++
    [("execution_time_ms", .natural c.milliseconds)]

end Docket
