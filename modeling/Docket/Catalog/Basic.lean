import Docket.Query.Basic
import Docket.Template.Basic

/-! Catalogs: the templates, queries and shared constants of an installation. -/
namespace Docket

structure Catalog (α : Type) where
  templates : List (Template α)
  queries : List Query
  constants : List Constant

inductive CatalogError
  | unknownTemplate (id : String)
  | unknownQuery (id : String)
  | invalidTemplate (id : String) (issues : List Issue)

def CatalogError.message : CatalogError → String
  | unknownTemplate id => s!"unknown template: {id}"
  | unknownQuery id => s!"unknown query: {id}"
  | invalidTemplate id issues =>
    s!"template {id} is invalid: " ++ Text.joined "; " (issues.map (·.message))

namespace Catalog

variable {α : Type}

def empty : Catalog α := ⟨[], [], []⟩

/-- The first template with an identifier. -/
def template (c : Catalog α) (id : String) : Except CatalogError (Template α) :=
  match c.templates.find? (·.id = id) with
  | some t => .ok t
  | none => .error (.unknownTemplate id)

/-- The first query with an identifier. -/
def query (c : Catalog α) (id : String) : Except CatalogError Query :=
  match c.queries.find? (·.id = id) with
  | some q => .ok q
  | none => .error (.unknownQuery id)

def queriesFor (c : Catalog α) (templateId : String) : List Query :=
  c.queries.filter (·.templateId = some templateId)

/-- The catalog's own constants and behind them those that its queries share. -/
def sharedConstants (c : Catalog α) : List Constant :=
  c.constants ++ (c.queries.flatMap (·.constants)).filter (·.scope = .shared)

/-- Accepts a catalog of templates without issues; else the first that has any is the error. -/
def validate [Scalar α] (c : Catalog α) : Except CatalogError Unit :=
  match c.templates.find? (!·.issues.isEmpty) with
  | some t => .error (.invalidTemplate t.id t.issues)
  | none => .ok ()

end Catalog
end Docket
