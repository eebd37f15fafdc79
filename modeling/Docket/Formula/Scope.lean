import Docket.Formula.Evaluation

/-! Named values a formula may refer to. A query's own constants shadow the shared ones. -/
namespace Docket.Formula

/-- Values by name, sorted by name. -/
structure Names where
  entries : List (String × Float)

namespace Names

def empty : Names := ⟨[]⟩

def get? (ns : Names) (name : String) : Option Float := ns.entries.lookup name

/-- Gives a name a value, in place of an earlier one. -/
def insertInto (name : String) (x : Float) : List (String × Float) → List (String × Float)
  | [] => [(name, x)]
  | (k, v) :: rest =>
    if name < k then (name, x) :: (k, v) :: rest
    else if name = k then (name, x) :: rest
    else (k, v) :: insertInto name x rest

def insert (ns : Names) (name : String) (x : Float) : Names := ⟨insertInto name x ns.entries⟩

/-- Gives a name a value unless it has one. -/
def insertNew (ns : Names) (name : String) (x : Float) : Names :=
  match ns.get? name with
  | some _ => ns
  | none => ns.insert name x

def ofList (entries : List (String × Float)) : Names :=
  entries.foldl (fun ns (k, v) => ns.insert k v) empty

def size (ns : Names) : Nat := ns.entries.length

end Names

/-- What is known before any output is computed. -/
structure Inputs where
  fields : Names
  parameters : Names
  constants : Names

def Inputs.empty : Inputs := ⟨.empty, .empty, .empty⟩

/-- The inputs and the outputs computed so far. -/
structure Scope where
  inputs : Inputs
  calculated : Names

/-- Each kind looks in its own names; a parameter that is not the query's own is a constant. -/
def Scope.resolve (s : Scope) : Resolver := fun r =>
  match r.kind with
  | .input => s.inputs.fields.get? r.name
  | .calculated => s.calculated.get? r.name
  | .parameter => (s.inputs.parameters.get? r.name).or (s.inputs.constants.get? r.name)
  | .constant => s.inputs.constants.get? r.name

end Docket.Formula
