import Docket.Command.Session
import Docket.Results.Process

/-! Calculating a formula or a query over values given by hand. -/
namespace Docket

/-- A name with a value, as `NAME=VALUE`. -/
def readAssignment (text : String) : Except String (String × Float) :=
  match Text.cutFirst? '=' text.toList with
  | none => .error s!"expected NAME=VALUE, got {Text.Quoted.encode text}"
  | some (name, value) =>
    match Reading.float? (Text.trimChars value) with
    | some x => .ok (String.ofList (Text.trimChars name), x)
    | none => .error s!"{Text.Quoted.encode (String.ofList value)} is not a number"

inductive CalcTarget
  | formula (text : String)
  | query (id : String)

structure CalcOptions where
  target : CalcTarget
  /-- A file of field values. -/
  inputs : Option String
  /-- Field values, which go before those of the file. -/
  fields : List (String × Float)
  constants : List (String × Float)
  catalog : Option String

namespace CalcOptions
open Formula Json

/-- Gives constants their values. -/
def withConstants (i : Inputs) (constants : List (String × Float)) : Inputs :=
  { i with constants := constants.foldl (fun ns (name, x) => ns.insert name x) i.constants }

/-- The outcome of a formula, keys sorted. -/
def outcomeRecord (o : Outcome) : Value :=
  let failure := match o.value with
    | .ok _ => []
    | .error e => [("error", .string e.message)]
  .object <| failure ++ [("formula", .string o.substituted),
    ("unresolved", .texts (o.unresolved.map (·.display))),
    ("value", .optional Value.real o.value.toOption)]

variable {m : Type → Type} [Monad m] [Host m]

/-- The field values of the file and of the command line. -/
def fieldValues (o : CalcOptions) : Session m Names := do
  let given ← match o.inputs with
    | none => pure Names.empty
    | some path =>
      let text ← Session.demand (Host.readText path)
      Session.require (.inputs path) (decodeText Names.decoder text)
  return o.fields.foldl (fun ns (name, x) => ns.insert name x) given

def runFormula (o : CalcOptions) (fields : Names) (text : String) : Session m Unit := do
  let inputs := withConstants { Inputs.empty with fields } o.constants
  let outcome := Formula.run text ⟨inputs, .empty⟩
  Session.say (pretty (outcomeRecord outcome))
  let _ ← Session.require .formula outcome.value

def runQuery (o : CalcOptions) (fields : Names) (id : String) (named : Option String)
    (usual : String) : Session m Unit := do
  let settings ← Session.settings named usual
  let catalog ← Session.catalog (o.catalog.getD settings.pipeline.catalog)
  let query ← Session.require .catalog (catalog.query id)
  let inputs := withConstants (query.inputs fields catalog.sharedConstants) o.constants
  let start ← Session.ask (Host.now : m Time)
  let result := Calculation.run query inputs
  let milliseconds ← Session.ask (Host.millisecondsSince (m := m) start)
  Session.say (pretty { result with milliseconds }.toJson)
  match result.error with
  | some text => throw (.query text)
  | none => return ()

/-- Settings are read for a query only. -/
def run (o : CalcOptions) (named : Option String) (usual : String) : Session m Unit := do
  let fields ← o.fieldValues
  match o.target with
  | .formula text => o.runFormula fields text
  | .query id => o.runQuery fields id named usual

end CalcOptions
end Docket
