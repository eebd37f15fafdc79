import Docket.Command.Calc
import Docket.Command.Config
import Docket.Command.Extract
import Docket.Command.Options
import Docket.Command.Run

/-! The commands of the program: what a command line may say, and what each command does. -/
namespace Docket

inductive Command
  | run (o : RunOptions)
  | extract (o : ExtractOptions)
  | calc (o : CalcOptions)
  | config (action : ConfigAction)

/-- A command and the settings file named for it. -/
structure Invocation where
  settingsFile : Option String
  command : Command

namespace Command

/-- Seconds, as a natural number of 64 bits. -/
def readSeconds (text : String) : Except String Nat :=
  match Reading.unsigned? (twoTo 64) text.toList with
  | some n => .ok n
  | none =>
    let digits := if text.toList.head? = some '+' then text.toList.drop 1 else text.toList
    .error <|
      if text.isEmpty then "cannot parse integer from empty string"
      else if twoTo 64 ≤ Reading.natural (digits.takeWhile Reading.isDigit) then
        "number too large to fit in target type"
      else "invalid digit found in string"

def helpSwitch : Switch := ⟨"help", some 'h', .help, .any⟩

def settingsSwitch : Switch := ⟨"config", some 'c', .single, .any⟩

/-- A switch with a path. -/
def pathSwitch (name : String) (letter : Option Char) : Switch := ⟨name, letter, .single, .path⟩

def textSwitch (name : String) (letter : Option Char) : Switch := ⟨name, letter, .single, .any⟩

def flagSwitch (name : String) : Switch := ⟨name, none, .flag, .any⟩

/-- A switch with a name and a value. -/
def assignmentSwitch (name : String) (letter : Option Char) : Switch :=
  let argument := s!"--{name} <{Text.upper name}>"
  ⟨name, letter, .repeated, .parsed argument readAssignment⟩

/-- A grammar with the switches that every command has. -/
def grammarOf (name : String) (switches : List Switch) (operands : List Operand)
    (exactlyOne : List String) (commands : List Grammar) : Grammar :=
  ⟨name, switches ++ [settingsSwitch, helpSwitch], operands, exactlyOne, commands⟩

def runGrammar : Grammar :=
  grammarOf "run"
    [flagSwitch "once", pathSwitch "intake-dir" (some 'i'), pathSwitch "output-dir" (some 'o'),
      pathSwitch "catalog" none,
      ⟨"interval", none, .single, .parsed "--interval <INTERVAL>" readSeconds⟩] [] [] []

def extractGrammar : Grammar :=
  grammarOf "extract"
    [textSwitch "template" (some 't'), textSwitch "query" (some 'q'), pathSwitch "catalog" none,
      pathSwitch "output" (some 'o'), flagSwitch "show-calibration"]
    [⟨"document", .path⟩] [] []

def calcGrammar : Grammar :=
  grammarOf "calc"
    [textSwitch "query" (some 'q'), textSwitch "formula" (some 'f'), pathSwitch "inputs" none,
      assignmentSwitch "input" (some 'i'), assignmentSwitch "constant" none,
      pathSwitch "catalog" none] [] ["query", "formula"] []

def configGrammar : Grammar :=
  grammarOf "config" [] [] []
    [grammarOf "show" [] [] [] [],
      grammarOf "init" [pathSwitch "output" (some 'o'), flagSwitch "force"] [] [] [],
      grammarOf "get" [] [⟨"key", .any⟩] [] [],
      grammarOf "set" [] [⟨"key", .any⟩, ⟨"value", .any⟩] [] [],
      grammarOf "path" [] [] [] []]

def grammar : Grammar :=
  grammarOf "docfield"
    [⟨"verbose", some 'v', .counter, .any⟩, ⟨"version", some 'V', .version, .any⟩] [] []
    [runGrammar, extractGrammar, calcGrammar, configGrammar]

/-- The value of an operand or switch that the grammar asks for. -/
def needed (ms : Matches) (name : String) : Except UsageFault String :=
  match ms.value? name with
  | some v => .ok v
  | none => .error .missingArgument

/-- The assignments of a switch. -/
def assignments (ms : Matches) (name : String) : List (String × Float) :=
  (ms.all name).filterMap fun v => (readAssignment v).toOption

def ofRun (ms : Matches) : RunOptions where
  once := ms.has "once"
  intake := ms.value? "intake-dir"
  output := ms.value? "output-dir"
  catalog := ms.value? "catalog"
  interval := (ms.value? "interval").bind fun v => (readSeconds v).toOption

def ofExtract (ms : Matches) : Except UsageFault ExtractOptions := do
  return {
    document := ← needed ms "document"
    template := ms.value? "template"
    query := ms.value? "query"
    catalog := ms.value? "catalog"
    output := ms.value? "output"
    showCalibration := ms.has "show-calibration" }

def ofCalc (ms : Matches) : Except UsageFault CalcOptions := do
  let target ← match ms.value? "formula" with
    | some text => pure (CalcTarget.formula text)
    | none => (needed ms "query").map .query
  return {
    target
    inputs := ms.value? "inputs"
    fields := assignments ms "input"
    constants := assignments ms "constant"
    catalog := ms.value? "catalog" }

def ofConfig (ms : Matches) : Except UsageFault ConfigAction :=
  match ms.command? with
  | some ("show", _) => .ok .print
  | some ("init", ms) => .ok (.init (ms.value? "output") (ms.has "force"))
  | some ("get", ms) => (needed ms "key").map .get
  | some ("set", ms) => do return .set (← needed ms "key") (← needed ms "value")
  | some ("path", _) => .ok .path
  | _ => .error .missingCommand

def ofMatches (ms : Matches) : Except UsageFault Command :=
  match ms.command? with
  | some ("run", ms) => .ok (.run (ofRun ms))
  | some ("extract", ms) => (ofExtract ms).map .extract
  | some ("calc", ms) => (ofCalc ms).map .calc
  | some ("config", ms) => (ofConfig ms).map .config
  | _ => .error .missingCommand

/-- The settings file that the innermost command names. -/
def settingsFile? : Matches → Option String
  | .mk values none => values.lookup "config"
  | .mk values (some (_, inner)) => (settingsFile? inner).or (values.lookup "config")

end Command

/-- Reads a command line. -/
def Invocation.read (args : List String) : Except UsageFault Invocation := do
  let ms ← Command.grammar.read args
  return ⟨Command.settingsFile? ms, ← Command.ofMatches ms⟩

variable {m : Type → Type} [Monad m] [Host m]

/-- Carries out a command; `usual` is where the settings lie unless a file is named. A run that has
no end is carried out once. -/
def Invocation.perform (i : Invocation) (usual : String) : Session m Unit :=
  match i.command with
  | .run o => o.runOnce i.settingsFile usual
  | .extract o => o.run i.settingsFile usual
  | .calc o => o.run i.settingsFile usual
  | .config action => action.run (i.settingsFile.getD usual)

/-- What a command printed, and why it failed if it did. -/
structure Reply where
  printed : Printed
  failure : Option CommandError

/-- Runs a command to its end. -/
def Session.reply (s : Session m Unit) : m Reply := do
  let (result, printed) ← (ExceptT.run s).run .nothing
  return ⟨printed, match result with
    | .ok () => none
    | .error e => some e⟩

end Docket
