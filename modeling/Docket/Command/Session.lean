import Docket.Catalog.Record
import Docket.Glob.Pattern
import Docket.Results.Store
import Docket.Settings.Record

/-! What a command prints and how it fails, and the settings and the catalog it works with. -/
namespace Docket

/-- Why a command failed. -/
inductive CommandError
  | disk (e : DiskError)
  | settings (f : Json.Fault)
  | inputs (path : String) (f : Json.Fault)
  | catalogFile (path : String) (e : LoadError)
  | catalog (e : CatalogError)
  | pattern (e : Glob.PatternError)
  | formula (e : Formula.Error)
  | query (text : String)
  | noDocument (path : String)
  | noTemplate (fileName : String)
  | extraction (reason : String)
  | settingsExist (path : String)
  | unknownKey (key : String)
  | unknownPath (key : String)
  | noSection
  | badValue (key : String) (f : Json.Fault)
  | noIntake (path : String)

namespace CommandError

/-- What kept a catalog from being loaded. -/
def loadText : LoadError → String
  | .disk e => s!"I/O error: {e.message}"
  | .record f => s!"JSON error: {f.message}"

def message : CommandError → String
  | disk e => e.message
  | settings f => f.message
  | inputs path f => s!"Invalid inputs file {path}: {f.message}"
  | catalogFile path e => s!"Failed to load catalog {path}: {loadText e}"
  | catalog e => e.message
  | pattern e => e.message
  | formula e => s!"Formula failed: {e.message}"
  | query text => text
  | noDocument path => s!"Input file not found: {path}"
  | noTemplate fileName => s!"No template prefix matches {fileName}; pass --template"
  | extraction reason => s!"Extraction failed: {reason}"
  | settingsExist path =>
    s!"Config file already exists at {path}. Use --force to overwrite."
  | unknownKey key => s!"Configuration key not found: {key}"
  | unknownPath key => s!"Configuration path not found: {key}"
  | noSection => "Cannot set value at non-object path"
  | badValue key f => s!"Invalid value for {key}: {f.message}"
  | noIntake path => s!"Intake folder not found: {path}"

end CommandError

/-- What a command has printed, line by line. -/
structure Printed where
  output : String
  errors : String

def Printed.nothing : Printed := ⟨"", ""⟩

/-- A command at work on a machine: it prints and it may fail. -/
abbrev Session (m : Type → Type) := ExceptT CommandError (StateT Printed m)

namespace Session

variable {m : Type → Type} [Monad m] {β : Type}

/-- Asks the machine. -/
def ask (x : m β) : Session m β := liftM x

/-- Asks the machine for something that has to succeed. -/
def demand (x : m (Except DiskError β)) : Session m β := do
  match ← ask x with
  | .ok b => return b
  | .error e => throw (.disk e)

/-- The value, or the failure under the name of a cause. -/
def require {ε : Type} (cause : ε → CommandError) (x : Except ε β) : Session m β :=
  match x with
  | .ok b => return b
  | .error e => throw (cause e)

/-- Prints a line. -/
def say (line : String) : Session m Unit :=
  modify fun p => { p with output := p.output ++ line ++ "\n" }

/-- Prints a line among the errors. -/
def note (line : String) : Session m Unit :=
  modify fun p => { p with errors := p.errors ++ line ++ "\n" }

variable [Host m]

/-- The settings in a file. -/
def settingsIn (path : String) : Session m (Settings Float) := do
  let text ← demand (Host.readText path)
  require .settings (Json.decodeText Settings.decoder text)

/-- The settings in a file if it is there, else the standard ones. -/
def settingsOr (path : String) : Session m (Settings Float) := do
  if ← ask (Host.isThere path) then settingsIn path else return .standard

/-- The settings of a file that is named, or those of the usual place. -/
def settings (named : Option String) (usual : String) : Session m (Settings Float) :=
  match named with
  | some path => settingsIn path
  | none => settingsOr usual

def writeSettings (path : String) (s : Settings Float) : Session m Unit :=
  demand (Host.writeText path (Json.pretty s.toJson))

/-- The catalog in a file, all of whose templates keep the rules. -/
def catalog (path : String) : Session m (Catalog Float) := do
  let text ← require (fun e => .catalogFile path (.disk e)) (← ask (Host.readText path))
  let c ← require (fun f => .catalogFile path (.record f)) (Json.decodeText Catalog.decoder text)
  require .catalog c.validate
  return c

end Session
end Docket
