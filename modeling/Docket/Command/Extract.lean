import Docket.Command.Session
import Docket.Intake.Discovery
import Docket.Results.Process

/-! Extracting the fields of a single document. -/
namespace Docket

structure ExtractOptions where
  document : String
  /-- Else the template is found by the file name. -/
  template : Option String
  /-- Else all queries of the template are run. -/
  query : Option String
  catalog : Option String
  /-- Else the record is printed. -/
  output : Option String
  showCalibration : Bool

namespace ExtractOptions

/-- How one anchor was matched. -/
def anchorLine (a : AnchorMatch Float) : String :=
  let mark := if a.isTextMatch then "✓" else "✗"
  s!"   {mark} {a.name} {Text.Quoted.encode a.reference} -> {Text.Quoted.encode a.text} " ++
    s!"({fixedPlaces a.similarity 2}, {a.quality.title})"

/-- What the calibration found, line by line. -/
def calibrationLines (r : CalibrationReport Float) : List String :=
  let t := r.transformation
  [s!"ℹ Calibration confidence: {fixedPlaces (t.confidence * 100.0) 1}%",
    s!"   offset ({fixedPlaces t.offsetX 2}, {fixedPlaces t.offsetY 2}), " ++
      s!"scale ({fixedPlaces t.scaleX 4}, {fixedPlaces t.scaleY 4})"] ++
    r.fallbackReason.toList.map (s!"   {·}") ++ r.anchors.map anchorLine

variable {m : Type → Type} [Monad m] [Host m]

/-- The template that is named or that the file name belongs to. -/
def chooseTemplate (o : ExtractOptions) (c : Catalog Float) (fileName : String) :
    Except CommandError (Template Float) :=
  match o.template with
  | some id => (c.template id).mapError .catalog
  | none =>
    match Intake.templateFor fileName c.templates with
    | some t => .ok t
    | none => .error (.noTemplate fileName)

def chooseQueries (o : ExtractOptions) (c : Catalog Float) (t : Template Float) :
    Except CommandError (List Query) :=
  match o.query with
  | some id => ((c.query id).map fun q => [q]).mapError .catalog
  | none => .ok (c.queriesFor t.id)

/-- Writes a record to a file or prints it. -/
def deliver (o : ExtractOptions) (text : String) : Session m Unit := do
  match o.output with
  | some path =>
    Session.demand (Host.writeText path text)
    Session.note s!"✓ Output written to {path}"
  | none => Session.say text

def run (o : ExtractOptions) (named : Option String) (usual : String) : Session m Unit := do
  let settings ← Session.settings named usual
  if !(← Session.ask (Host.isThere o.document)) then throw (.noDocument o.document)
  let catalog ← Session.catalog (o.catalog.getD settings.pipeline.catalog)
  let fileName := (Path.fileName? o.document).getD ""
  let template ← Session.require id (o.chooseTemplate catalog fileName)
  let queries ← Session.require id (o.chooseQueries catalog template)
  let record ← Session.ask <| DocumentRecord.process settings catalog template queries o.document
    (Period.ofFileName? fileName)
  if o.showCalibration then
    for e in record.extraction do
      for line in calibrationLines e.calibration do Session.note line
  o.deliver (Json.pretty record.toJson)
  match record.error with
  | some reason => throw (.extraction reason)
  | none => return ()

end ExtractOptions
end Docket
