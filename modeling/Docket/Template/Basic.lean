import Docket.Extraction.FieldValue
import Docket.Layout.Rect
import Docket.Text.Case

/-! Templates: where the fields and the anchors of a kind of document lie, and the rules
a template keeps. -/
namespace Docket

structure PageSize (α : Type) where
  width : α
  height : α

/-- A rectangle whose text is wanted. -/
structure Field (α : Type) where
  name : String
  page : Nat
  rect : Rect α
  type : FieldType
  order : Nat

/-- A rectangle whose text is known. -/
structure Anchor (α : Type) where
  name : String
  reference : String
  page : Nat
  rect : Rect α
  order : Nat

structure Template (α : Type) where
  id : String
  name : String
  /-- Start of the names of files it applies to. -/
  namePrefix : String
  pageSize : PageSize α
  fields : List (Field α)
  anchors : List (Anchor α)

/-- A rule that a template breaks. -/
inductive Issue
  | missingId
  | unnamedField
  | fieldPage (field : String) (page : Nat)
  | fieldOutside (field : String)
  | duplicateField (name : String)
  | anchorWithoutText (anchor : String)
  | anchorPage (anchor : String) (page : Nat)
  | anchorOutside (anchor : String)
deriving DecidableEq

def Issue.message : Issue → String
  | missingId => "Missing template id"
  | unnamedField => "Field with empty name"
  | fieldPage name page => s!"Field {name} has page number {page}"
  | fieldOutside name => s!"Field {name} rectangle lies outside the page"
  | duplicateField name => s!"Duplicate field name {name}"
  | anchorWithoutText name => s!"Anchor {name} has no reference text"
  | anchorPage name page => s!"Anchor {name} has page number {page}"
  | anchorOutside name => s!"Anchor {name} rectangle lies outside the page"

namespace PageSize

variable {α : Type} [Scalar α]

/-- A4 in points. -/
def standard : PageSize α := ⟨Scalar.ofNat 595, Scalar.ofNat 842⟩

/-- Whether a rectangle has a positive size and lies on the page. -/
def holds (s : PageSize α) (r : Rect α) : Bool :=
  0 ≤ r.x && 0 ≤ r.y && 0 < r.width && 0 < r.height && r.right ≤ s.width && r.bottom ≤ s.height

end PageSize

namespace Template

variable {α : Type}

/-- Fields in display order; equal orders keep the order they come in. -/
def orderedFields (t : Template α) : List (Field α) := t.fields.mergeSort (·.order ≤ ·.order)

/-- Anchors in display order; equal orders keep the order they come in. -/
def orderedAnchors (t : Template α) : List (Anchor α) := t.anchors.mergeSort (·.order ≤ ·.order)

/-- Whether a file name starts with the template's own start of names, in any case. -/
def matchesName (t : Template α) (fileName : String) : Bool :=
  !t.namePrefix.isEmpty && Text.startsWith (Text.lower fileName) (Text.lower t.namePrefix)

variable [Scalar α]

/-- The issue, if the rule is broken. -/
def demand (kept : Bool) (issue : Issue) : List Issue := if kept then [] else [issue]

def fieldIssues (size : PageSize α) (f : Field α) : List Issue :=
  demand (!Text.isBlankText f.name) .unnamedField ++
    demand (1 ≤ f.page) (.fieldPage f.name f.page) ++
    demand (size.holds f.rect) (.fieldOutside f.name)

def anchorIssues (size : PageSize α) (a : Anchor α) : List Issue :=
  demand (!Text.isBlankText a.reference) (.anchorWithoutText a.name) ++
    demand (1 ≤ a.page) (.anchorPage a.name a.page) ++
    demand (size.holds a.rect) (.anchorOutside a.name)

/-- The names that equal their left neighbour. -/
def repeated : List String → List String
  | a :: b :: rest => (if a = b then [a] else []) ++ repeated (b :: rest)
  | _ => []

def duplicates (names : List String) : List String := repeated (names.mergeSort (· ≤ ·))

/-- All rules that are broken. -/
def issues (t : Template α) : List Issue :=
  demand (!Text.isBlankText t.id) .missingId ++
    t.fields.flatMap (fieldIssues t.pageSize) ++
    (duplicates (t.fields.map (·.name))).map .duplicateField ++
    t.anchors.flatMap (anchorIssues t.pageSize)

end Template
end Docket
