import Docket.Formula.Trace
import Docket.Json.Value
import Docket.Number.Decimal96
import Docket.Query.Basic

/-! Calculation of a query: its outputs in order, each over the fields and the outputs
computed before it. -/
namespace Docket
open Formula

structure Calculation where
  queryId : String
  /-- Values by output, sorted by name; a failed output has none. -/
  values : List (String × Option Float)
  /-- Formulas by output with the values they used. -/
  formulas : List (String × String)
  warnings : List String
  /-- Errors by output. -/
  errors : List (String × String)
  error : Option String
  /-- Time the work took. -/
  milliseconds : Nat

/-- Decimal places that every result is rounded to. -/
def Calculation.places : Nat := 10

/-- A result as an output of the given type. -/
def OutputType.finish (type : OutputType) (raw : Float) : Float :=
  let x := roundDecimal raw Calculation.places
  match type with
  | number | percentage => x
  | currency => roundDecimal x 2
  | integer => roundDecimal x 0
  | boolean => if x != 0.0 then 1.0 else 0.0

namespace Calculation

/-- A calculation under way and the outputs that later formulas may use. -/
structure Progress where
  result : Calculation
  calculated : Names

def start (q : Query) : Progress := ⟨⟨q.id, [], [], [], [], none, 0⟩, .empty⟩

def unresolvedWarning (o : Output) (r : Reference) : String :=
  s!"Output {o.name}: unresolved reference {r.display} replaced with 0"

/-- Computes one output. -/
def step (inputs : Inputs) (p : Progress) (o : Output) : Progress :=
  let outcome := Formula.run o.formula ⟨inputs, p.calculated⟩
  let r := p.result
  let warnings := r.warnings ++ outcome.unresolved.map (unresolvedWarning o)
  let formulas := Json.insertSorted o.name outcome.substituted r.formulas
  match outcome.value with
  | .ok raw =>
    let x := o.type.finish raw
    ⟨{ r with warnings, formulas, values := Json.insertSorted o.name (some x) r.values },
      p.calculated.insert o.name x⟩
  | .error e =>
    ⟨{ r with
        warnings, formulas
        values := Json.insertSorted o.name none r.values
        errors := Json.insertSorted o.name e.message r.errors },
      p.calculated⟩

/-- Notes that there are outputs and all of them failed. -/
def close (c : Calculation) : Calculation :=
  if !c.values.isEmpty && c.values.all (·.2.isNone) then
    { c with error := some s!"All {c.values.length} outputs of query {c.queryId} failed" }
  else c

def run (q : Query) (inputs : Inputs) : Calculation :=
  (q.orderedOutputs.foldl (step inputs) (start q)).result.close

def value? (c : Calculation) (output : String) : Option Float := (c.values.lookup output).join

/-- Whether every output has a value. -/
def isComplete (c : Calculation) : Bool := c.values.all (·.2.isSome)

end Calculation
end Docket
