import Docket.Text.Trim

/-! Command lines: switches with one or two dashes, operands by place, and commands that have
a grammar of their own. -/
namespace Docket

/-- Why a command line is refused, or answered without running anything. -/
inductive UsageFault
  | help | version
  /-- Nothing is given where something has to be. -/
  | helpForMissing
  | missingCommand | unknownCommand | unknownArgument | missingArgument | conflict
  | missingValue | surplusValue
  | refused (argument value reason : String)
deriving DecidableEq

/-- The first line of the message about a value. -/
def UsageFault.firstLine? : UsageFault → Option String
  | refused argument value reason =>
    let message := s!"error: invalid value '{value}' for '{argument}': {reason}"
    some (String.ofList (message.toList.takeWhile (· ≠ '\n')))
  | _ => none

/-- What a switch does. -/
inductive SwitchKind
  | flag | counter
  /-- Takes one value and is given at most once. -/
  | single
  /-- Takes a value each time it is given. -/
  | repeated
  | help | version
deriving DecidableEq

def SwitchKind.takesValue : SwitchKind → Bool
  | single | repeated => true
  | _ => false

/-- Accepts a value of a switch or operand. -/
abbrev ValueCheck := String → Except UsageFault Unit

namespace ValueCheck

def any : ValueCheck := fun _ => .ok ()

/-- A path has at least one character. -/
def path : ValueCheck := fun s => if s.isEmpty then .error .missingValue else .ok ()

def parsed {β : Type} (argument : String) (read : String → Except String β) : ValueCheck := fun s =>
  match read s with
  | .ok _ => .ok ()
  | .error reason => .error (.refused argument s reason)

end ValueCheck

structure Switch where
  name : String
  letter : Option Char
  kind : SwitchKind
  check : ValueCheck

structure Operand where
  name : String
  check : ValueCheck

/-- What a command may be given. -/
structure Grammar where
  name : String
  switches : List Switch
  operands : List Operand
  /-- Switches of which exactly one is given; none if empty. -/
  exactlyOne : List String
  commands : List Grammar

/-- What a command was given: the values by name in the order they came, a flag with an empty one,
and the command behind it. -/
inductive Matches
  | mk (values : List (String × String)) (command : Option (String × Matches))

namespace Matches

def values : Matches → List (String × String)
  | mk vs _ => vs

def command? : Matches → Option (String × Matches)
  | mk _ c => c

def has (ms : Matches) (name : String) : Bool := ms.values.any (·.1 = name)

def value? (ms : Matches) (name : String) : Option String := ms.values.lookup name

def all (ms : Matches) (name : String) : List String :=
  (ms.values.filter (·.1 = name)).map (·.2)

end Matches

namespace Grammar

def command? (g : Grammar) (name : String) : Option Grammar := g.commands.find? (·.name = name)

def long? (g : Grammar) (name : String) : Option Switch := g.switches.find? (·.name = name)

def letter? (g : Grammar) (c : Char) : Option Switch := g.switches.find? (·.letter = some c)

end Grammar

/-- A switch or operand that is not yet done with. -/
inductive Pending
  /-- Its value has to follow. -/
  | awaiting (s : Switch)
  | given (name : String) (once : Bool) (check : ValueCheck) (value : String)

/-- How far a command line has been read. -/
structure LineReader where
  values : List (String × String)
  pending : Option Pending
  operands : Nat
  /-- Whether two dashes have ended the switches. -/
  trailing : Bool

namespace LineReader

def start : LineReader := ⟨[], none, 0, false⟩

def isAwaiting (r : LineReader) : Bool :=
  match r.pending with
  | some (.awaiting _) => true
  | _ => false

/-- Accepts what is pending. -/
def settle (r : LineReader) : Except UsageFault LineReader :=
  match r.pending with
  | none => .ok r
  | some (.awaiting _) => .error .missingValue
  | some (.given name once check value) => do
    if once && r.values.any (·.1 = name) then .error .conflict
    check value
    .ok { r with pending := none, values := r.values ++ [(name, value)] }

/-- Gives a switch a value. -/
def give (r : LineReader) (s : Switch) (value : String) : LineReader :=
  { r with pending := some (.given s.name (s.kind = .single) s.check value) }

/-- A switch with the value attached to it, if any. -/
def switch (r : LineReader) (s : Switch) (attached : Option String) :
    Except UsageFault LineReader := do
  match s.kind, attached with
  | .single, some v | .repeated, some v => ((← r.settle).give s v).settle
  | .single, none | .repeated, none => .ok { ← r.settle with pending := some (.awaiting s) }
  | _, some _ => .error .surplusValue
  | kind, none =>
    let r ← r.settle
    match kind with
    | .help => .error .help
    | .version => .error .version
    | .counter => .ok { r with values := r.values ++ [(s.name, "")] }
    | _ =>
      if r.values.any (·.1 = s.name) then .error .conflict
      .ok { r with values := r.values ++ [(s.name, "")] }

/-- A word with two dashes. -/
def long (g : Grammar) (r : LineReader) (word : List Char) : Except UsageFault LineReader :=
  let (name, attached) := match Text.cutFirst? '=' word with
    | some (name, value) => (name, some (String.ofList value))
    | none => (word, none)
  match g.long? (String.ofList name) with
  | some s => r.switch s attached
  | none => .error .unknownArgument

/-- Letters behind one dash; what follows a letter that takes a value is its value. -/
def letters (g : Grammar) (r : LineReader) : List Char → Except UsageFault LineReader
  | [] => .ok r
  | c :: rest =>
    match g.letter? c with
    | none => .error .unknownArgument
    | some s =>
      if s.kind.takesValue then
        let attached := if rest.head? = some '=' then rest.drop 1 else rest
        r.switch s (if rest.isEmpty then none else some (String.ofList attached))
      else do letters g (← r.switch s none) rest

/-- A word that stands for itself. -/
def operand (g : Grammar) (r : LineReader) (word : String) : Except UsageFault LineReader := do
  match g.operands[r.operands]? with
  | some o =>
    let r ← r.settle
    .ok { r with pending := some (.given o.name false o.check word), operands := r.operands + 1 }
  | none =>
    .error <| if g.commands.isEmpty || (r.trailing && (g.command? word).isSome) then
      .unknownArgument else .unknownCommand

/-- One word that is no command. -/
def word (g : Grammar) (r : LineReader) (word : String) : Except UsageFault LineReader :=
  match r.trailing, word.toList, r.pending with
  | false, ['-', '-'], _ => .ok { r with trailing := true }
  | false, '-' :: '-' :: cs, _ => long g r cs
  | false, '-' :: c :: cs, _ => letters g r (c :: cs)
  | false, _, some (.awaiting s) => .ok (r.give s word)
  | _, _, _ => operand g r word

/-- Accepts a line that has been read to its end. -/
def finish (g : Grammar) (r : LineReader) (command : Option (String × Matches)) :
    Except UsageFault Matches := do
  let r ← r.settle
  let chosen := g.exactlyOne.filter fun name => r.values.any (·.1 = name)
  if !g.commands.isEmpty && command.isNone then
    .error (if r.values.isEmpty then .helpForMissing else .missingCommand)
  else if 1 < chosen.length then .error .conflict
  else if r.operands < g.operands.length || (chosen.isEmpty && !g.exactlyOne.isEmpty) then
    .error .missingArgument
  else .ok ⟨r.values, command⟩

/-- Help is asked for a command of a command. -/
def helpFor (g : Grammar) : List String → UsageFault
  | [] => .help
  | name :: rest =>
    match g.command? name with
    | some sub => helpFor sub rest
    | none => if name = "help" && !g.commands.isEmpty then .help else .unknownCommand

/-- Reads the words of a line. -/
def words (g : Grammar) (r : LineReader) : List String → Except UsageFault Matches
  | [] => r.finish g none
  | w :: rest =>
    let command := if r.trailing || r.isAwaiting then none else g.command? w
    match command with
    | some sub => do
      let inner ← words sub start rest
      r.finish g (some (sub.name, inner))
    | none =>
      if w = "help" && !g.commands.isEmpty && !r.trailing && !r.isAwaiting then
        .error (helpFor g rest)
      else do words g (← r.word g w) rest

end LineReader

def Grammar.read (g : Grammar) (args : List String) : Except UsageFault Matches :=
  LineReader.start.words g args

end Docket
