import Docket.Glob.Walk
import Docket.Period
import Docket.Template.Basic

/-! Finding the documents in the intake folder that belong to a template. -/
namespace Docket

/-- A document that waits in the intake folder. -/
structure IntakeDocument where
  path : String
  templateId : String
  period : Period

namespace Intake

/-- Of two templates the one with the longer start of names; of equals the second. -/
def longer {α : Type} (best : Option (Template α)) (t : Template α) : Option (Template α) :=
  match best with
  | some b => if t.namePrefix.utf8ByteSize < b.namePrefix.utf8ByteSize then some b else some t
  | none => some t

/-- The template that a file name belongs to. -/
def templateFor {α : Type} (fileName : String) (templates : List (Template α)) :
    Option (Template α) :=
  (templates.filter (·.matchesName fileName)).foldl longer none

variable {m : Type → Type} [Monad m] [Host m] {α : Type}

/-- The period in the name of a document, else the month it was last written. -/
def periodOf (path fileName : String) : m (Option Period) := do
  match Period.ofFileName? fileName with
  | some p => return some p
  | none => return (← Host.modified? path).map Period.ofTime

/-- The document at a path, if it is a file of a template. -/
def document? (templates : List (Template α)) (path : String) : m (Option IntakeDocument) := do
  if ← Host.isRegular path then
    match Path.fileName? path with
    | none => return none
    | some name =>
      match templateFor name templates with
      | none => return none
      | some t => return (← periodOf path name).map fun period => ⟨path, t.id, period⟩
  else return none

/-- All documents that a pattern names in a folder, sorted by path. -/
def discover (folder pattern : String) (templates : List (Template α)) :
    m (Except Glob.PatternError (List IntakeDocument)) := do
  match Glob.PathPattern.read (Path.join folder pattern) with
  | .error e => return .error e
  | .ok p =>
    let found ← (← Glob.find p).mapM (document? templates)
    return .ok ((found.filterMap id).mergeSort fun a b => Path.le a.path b.path)

end Intake
end Docket
