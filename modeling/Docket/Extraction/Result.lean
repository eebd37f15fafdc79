import Docket.Calibration.Report
import Docket.Extraction.FieldValue
import Docket.Settings.Basic
import Docket.Text.Quoted

/-! Extraction of a document: the fields of a template are moved by the calibration, and
the words inside become values. What is not found leaves a warning. -/
namespace Docket

/-- What a document shows. -/
inductive DocumentKind
  | text | scanned | empty
deriving DecidableEq

namespace DocumentKind

def name : DocumentKind → String
  | text => "text"
  | scanned => "scanned"
  | empty => "empty"

/-- The kind as warnings write it. -/
def title : DocumentKind → String
  | text => "Text"
  | scanned => "Scanned"
  | empty => "Empty"

def names : List (String × DocumentKind) := [text, scanned, empty].map fun k => (k.name, k)

end DocumentKind

/-- Where a field was looked for and what stood there. -/
structure FieldDetail (α : Type) where
  name : String
  page : Nat
  type : FieldType
  configured : Rect α
  effective : Rect α
  text : String
  wordCount : Nat
  found : Bool

/-- Why a field has no value. -/
inductive FieldMiss
  | noPage (field : String) (page : Nat)
  | noText (field : String)
  | unreadable (field text : String)

def FieldMiss.message : FieldMiss → String
  | noPage name page => s!"Field {name}: page {page} not available"
  | noText name => s!"Field {name}: no text found"
  | unreadable name text => s!"Field {name}: could not parse {Text.Quoted.encode text}"

/-- What became of one field. -/
structure FieldOutcome (α : Type) where
  detail : FieldDetail α
  result : Except FieldMiss FieldValue

namespace FieldOutcome

variable {α : Type}

def value? (o : FieldOutcome α) : Option FieldValue := o.result.toOption

def warning? (o : FieldOutcome α) : Option String :=
  match o.result with
  | .ok _ => none
  | .error miss => some miss.message

end FieldOutcome

structure Extraction (α : Type) where
  templateId : String
  success : Bool
  kind : Option DocumentKind
  /-- Values by field, sorted by name. -/
  fields : List (String × Option FieldValue)
  details : List (FieldDetail α)
  calibration : CalibrationReport α
  warnings : List String
  /-- Time the work took. -/
  milliseconds : Nat

namespace Extraction

variable {α : Type}

def value? (e : Extraction α) (name : String) : Option FieldValue :=
  (e.fields.lookup name).join

def number? (e : Extraction α) (name : String) : Option Float :=
  (e.value? name).bind FieldValue.asNumber?

def numbers (e : Extraction α) : List (String × Float) :=
  e.fields.filterMap fun (name, v) => (v.bind FieldValue.asNumber?).map fun x => (name, x)

def foundCount (e : Extraction α) : Nat := (e.fields.filter (·.2.isSome)).length

def confidence (e : Extraction α) : α := e.calibration.transformation.confidence

/-- Values by name; of fields of one name the last counts. -/
def valuesOf (os : List (FieldOutcome α)) : List (String × Option FieldValue) :=
  Json.sortedMembers (os.map fun o => (o.detail.name, o.value?))

/-- Notes what the document shows. -/
def withKind (kind : DocumentKind) (e : Extraction α) : Extraction α :=
  { e with
    kind := some kind
    warnings := e.warnings ++
      if kind = .text then [] else [s!"Document has no text layer ({kind.title})"] }

variable [Scalar α]

/-- Reads one field from the pages. -/
def readField (gather : RegionRule α) (pages : PageStore α) (t : Transformation α)
    (f : Field α) : FieldOutcome α :=
  let effective := t.apply f.rect
  let blank : FieldDetail α := ⟨f.name, f.page, f.type, f.rect, effective, "", 0, false⟩
  match pages.words? f.page with
  | none => ⟨blank, .error (.noPage f.name f.page)⟩
  | some ws =>
    let region := Region.collect gather effective ws
    let detail := { blank with text := region.text, wordCount := region.wordCount }
    if region.isBlank then ⟨detail, .error (.noText f.name)⟩
    else
      match FieldValue.ofText? region.text f.type with
      | some v => ⟨{ detail with found := true }, .ok v⟩
      | none => ⟨detail, .error (.unreadable f.name region.text)⟩

/-- Extracts the fields of a template from pages that have been read. -/
def ofWords (gather : RegionRule α) (rule : CalibrationRule α) (t : Template α)
    (pages : PageStore α) : Extraction α :=
  let calibration := CalibrationReport.calibrate rule gather t pages.source
  let outcomes := t.orderedFields.map (readField gather pages calibration.transformation)
  let fields := valuesOf outcomes
  { templateId := t.id
    success := t.fields.isEmpty || fields.any (·.2.isSome)
    kind := none
    fields
    details := outcomes.map (·.detail)
    calibration
    warnings := calibration.warnings ++ outcomes.filterMap FieldOutcome.warning?
    milliseconds := 0 }

/-- Reads the pages of a document and extracts the fields. -/
def ofPages (gather : RegionRule α) (rule : CalibrationRule α) (t : Template α)
    (source : PageSource α) : Extraction α :=
  let (pages, warnings) := PageStore.collect source
  let e := ofWords gather rule t pages
  { e with warnings := warnings ++ e.warnings }

end Extraction
end Docket
