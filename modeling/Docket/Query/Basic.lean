import Docket.Formula.Scope

/-! Queries: named outputs computed by formulas over the fields of a document, and the
constants their formulas use. -/
namespace Docket

/-- The declared type of an output. -/
inductive OutputType
  | number | currency | percentage | integer | boolean
deriving DecidableEq

namespace OutputType

def name : OutputType → String
  | number => "number"
  | currency => "currency"
  | percentage => "percentage"
  | integer => "integer"
  | boolean => "boolean"

def names : List (String × OutputType) :=
  [number, currency, percentage, integer, boolean].map fun t => (t.name, t)

end OutputType

/-- Whether a constant belongs to its query or to all of them. -/
inductive ConstantScope
  | own | shared
deriving DecidableEq

namespace ConstantScope

def name : ConstantScope → String
  | own => "local"
  | shared => "global"

def names : List (String × ConstantScope) := [own, shared].map fun s => (s.name, s)

end ConstantScope

structure Output where
  name : String
  formula : String
  type : OutputType
  order : Nat

structure Constant where
  name : String
  value : Float
  scope : ConstantScope

structure Query where
  id : String
  name : String
  templateId : Option String
  outputs : List Output
  constants : List Constant

namespace Query

/-- Outputs in the order they are computed; equal orders keep the order they come in. -/
def orderedOutputs (q : Query) : List Output := q.outputs.mergeSort (·.order ≤ ·.order)

open Formula

/-- Gives the value of a constant of a query to the inputs. A shared name that is there already
keeps its value. -/
def declare (i : Inputs) (c : Constant) : Inputs :=
  match c.scope with
  | .own => { i with parameters := i.parameters.insert c.name c.value }
  | .shared => { i with constants := i.constants.insertNew c.name c.value }

/-- What the formulas of a query know: the fields, the shared constants, of which the last of a
name counts, and the query's own constants. -/
def inputs (q : Query) (fields : Names) (shared : List Constant) : Inputs :=
  let constants := shared.foldl (fun ns c => ns.insert c.name c.value) Names.empty
  q.constants.foldl declare ⟨fields, .empty, constants⟩

end Query
end Docket
