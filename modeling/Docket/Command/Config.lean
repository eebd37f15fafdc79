import Docket.Command.Session

/-! Showing and changing the settings file. -/
namespace Docket
open Json

mutual
/-- The value with the members of every object sorted by key. -/
def Json.Value.sorted : Value → Value
  | .array items => .array (sortedItems items)
  | .object members => .object (sortedMembers (sortedParts members))
  | v => v

def Json.Value.sortedItems : List Value → List Value
  | [] => []
  | v :: vs => v.sorted :: sortedItems vs

def Json.Value.sortedParts : List (String × Value) → List (String × Value)
  | [] => []
  | (k, v) :: ms => (k, v.sorted) :: sortedParts ms
end

/-- Why a value cannot be put at a place. -/
inductive PlaceFault
  /-- A key above the last names nothing. -/
  | path
  /-- The last key names nothing. -/
  | key
  /-- What holds the last key is no object. -/
  | noObject
deriving DecidableEq

namespace Json.Value

/-- The value at a path of keys. -/
def at? (v : Value) : List String → Option Value
  | [] => some v
  | key :: rest => (v.member? key).bind (·.at? rest)

def replace (key : String) (value : Value) : List (String × Value) → List (String × Value)
  | [] => []
  | (k, v) :: rest => if k = key then (k, value) :: rest else (k, v) :: replace key value rest

/-- Puts a value at a path of keys that is there already. -/
def putAt (value : Value) : List String → Value → Except PlaceFault Value
  | [], _ => .error .path
  | [key], .object members =>
    if (members.lookup key).isSome then .ok (.object (replace key value members)) else .error .key
  | [_], _ => .error .noObject
  | key :: rest, v =>
    match v, v.member? key with
    | .object members, some inner =>
      (putAt value rest inner).map fun inner => .object (replace key inner members)
    | _, _ => .error .path

end Json.Value

inductive ConfigAction
  | print
  | init (output : Option String) (force : Bool)
  | get (key : String)
  | set (key value : String)
  | path

namespace ConfigAction

/-- Keys between points. -/
def keys (key : String) : List String := (Text.split '.' key.toList).map String.ofList

/-- A value as a record, or as plain text if it is none. -/
def readValue (text : String) : Value :=
  ((decodeText .value text).toOption).getD (.string text)

def placeError (key : String) : PlaceFault → CommandError
  | .path => .unknownPath key
  | .key => .unknownKey key
  | .noObject => .noSection

/-- The settings with another value at a key. -/
def changed (s : Settings Float) (key : String) (value : Value) :
    Except CommandError (Settings Float) := do
  let record ← (Value.putAt value (keys key) s.toJson.sorted).mapError (placeError key)
  (Settings.decoder.convert record).mapError (.badValue key)

variable {m : Type → Type} [Monad m] [Host m]

def printSettings (path : String) : Session m Unit := do
  if !(← Session.ask (Host.isThere path)) then
    Session.note "ℹ No config file found, showing defaults."
  Session.say (pretty (← Session.settingsOr path).toJson)

def initSettings (path : String) (force : Bool) : Session m Unit := do
  if !force && (← Session.ask (Host.isThere path)) then throw (.settingsExist path)
  Session.demand (Host.makeParents path)
  Session.writeSettings path .standard
  Session.say s!"✓ Created configuration file at {path}"

def getSetting (path key : String) : Session m Unit := do
  match (← Session.settingsOr path).toJson.sorted.at? (keys key) with
  | some v => Session.say (pretty v)
  | none => throw (.unknownKey key)

def setSetting (path key text : String) : Session m Unit := do
  let settings ← Session.settingsOr path
  Session.demand (Host.makeParents path)
  let value := readValue text
  Session.writeSettings path (← Session.require id (changed settings key value))
  Session.say s!"✓ Set {key} = {compact value}"

def printPath (path : String) : Session m Unit := do
  Session.say s!"Configuration file: {path}"
  if ← Session.ask (Host.isThere path) then Session.say "Status: exists"
  else
    Session.say "Status: not created"
    Session.say ""
    Session.say "Run 'docfield config init' to create a configuration file."

def run (action : ConfigAction) (path : String) : Session m Unit :=
  match action with
  | print => printSettings path
  | init output force => initSettings (output.getD path) force
  | get key => getSetting path key
  | set key value => setSetting path key value
  | .path => printPath path

end ConfigAction
end Docket
