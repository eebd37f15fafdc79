import Docket.Command.Basic
import Std.Time.DateTime.Timestamp

/-! The program: the machine it runs on, and the command line it is started with. -/
namespace Docket.Terminal

/-- The cause of a failed operation. -/
def cause (e : IO.Error) : DiskError :=
  match e with
  | .noFileOrDirectory .. => .notFound
  | .alreadyExists .. => .taken
  | .inappropriateType _ code _ => if code = 21 ∨ code = 4294967275 then .isFolder else .notFolder
  | e => .other (toString e)

/-- An operation whose failure is an answer. -/
def attempt {β : Type} (x : IO β) : IO (Except DiskError β) := do
  try return .ok (← x)
  catch e => return .error (cause e)

def facts (path : String) : IO IO.FS.Metadata := do ((← IO.currentDir) / path).metadata

def timeOf (t : IO.FS.SystemTime) : Time := t.sec * Time.second + t.nsec.toNat

def readText (path : String) : IO (Except DiskError String) := do
  return (← attempt (IO.FS.readBinFile path)).bind fun bytes =>
    match String.fromUTF8? bytes with
    | some text => .ok text
    | none => .error .notText

/-- Writes a file again in place, which sets the time it was written. -/
def freshen (path : String) : IO Unit := do
  let file ← IO.FS.Handle.mk path .readWrite
  let text ← file.readToEnd
  file.rewind
  file.putStr text
  file.flush

/-- Random bytes in groups, marked as drawn at random. -/
def randomText : IO String := do
  let byte (b : UInt8) : List Char := (Json.hex4 b.toNat).drop 2
  let bytes ← IO.getRandomBytes 16
  let digits := bytes.toList.flatMap byte
  let group (start count : Nat) : String := String.ofList ((digits.drop start).take count)
  return s!"{group 0 8}-{group 8 4}-4{group 13 3}-a{group 17 3}-{group 20 12}"

instance : Host IO where
  Handle := IO.FS.Handle
  kind? path := do
    match ← attempt (facts path) with
    | .error _ => return none
    | .ok f => return match f.type with
      | .file => some .regular
      | .dir => some .folder
      | _ => some .special
  modified? path := do return ((← attempt (facts path)).toOption).map fun f => timeOf f.modified
  readText := readText
  readDocument path := do
    return (← attempt (IO.FS.readBinFile path)).map fun bytes => Pdf.File.openBytes bytes.toList
  writeText path text := attempt (IO.FS.writeFile path text)
  create path := attempt (IO.FS.Handle.mk path .writeNew)
  append file text := attempt do
    file.putStr text
    file.flush
  remove path := attempt (IO.FS.removeFile path)
  touch path := attempt (freshen path)
  makeFolder path := attempt (IO.FS.createDir path)
  names path := attempt do
    return (← ((← IO.currentDir) / path).readDir).toList.map (·.fileName)
  now := do return (← Std.Time.Timestamp.now).toNanosecondsSinceUnixEpoch.val
  processId := do
    let status ← IO.FS.readFile "/proc/self/stat"
    return Reading.natural (status.toList.takeWhile Reading.isDigit)
  uniqueText := randomText

/-- The folder that settings of programs lie in. -/
def settingsFolder : IO String := do
  match ← IO.getEnv "XDG_CONFIG_HOME", ← IO.getEnv "HOME" with
  | some folder, home =>
    if Path.isAbsolute folder then return folder
    else return (home.map (Path.join · ".config")).getD "."
  | none, some home => return Path.join home ".config"
  | none, none => return "."

def print (p : Printed) : IO Unit := do
  IO.eprint p.errors
  IO.print p.output

/-- Runs batch after batch without end. -/
partial def watch (s : Settings Float) (c : Catalog Float) : IO Unit := do
  let (result, printed) ← (ExceptT.run (Batch.run s c : Session IO BatchSummary)).run .nothing
  print printed
  match result with
  | .ok summary => if 0 < summary.processed then summary.lines.forM fun line => IO.println line
  | .error e => IO.eprintln s!"Batch failed: {e.message}"
  IO.sleep (1000 * max 1 s.pipeline.pollSeconds).toUInt32
  watch s c

/-- The text for a command line that is not carried out. -/
def usageText (e : UsageFault) : String :=
  match e with
  | .version => "docfield 0.1.0"
  | .help | .helpForMissing => "Usage: docfield [OPTIONS] <run|extract|calc|config>"
  | e => e.firstLine?.getD "error: the arguments are not understood; try '--help'"

/-- Carries out a command; a run without an end goes on until the program is stopped. -/
def carryOut (i : Invocation) (usual : String) : IO UInt32 := do
  let endless : Option RunOptions := match i.command with
    | .run o => if o.once then none else some o
    | _ => none
  let session : Session IO Unit := match endless with
    | some o => do
      let (settings, catalog) ← o.prepare i.settingsFile usual
      Session.ask (watch settings catalog)
    | none => i.perform usual
  let reply ← session.reply
  print reply.printed
  match reply.failure with
  | none => return 0
  | some e =>
    IO.eprintln s!"Error: {e.message}"
    return 1

end Docket.Terminal

open Docket Docket.Terminal in
def main (args : List String) : IO UInt32 := do
  match Invocation.read args with
  | .ok i => carryOut i (Path.join (← settingsFolder) "docfield/config.json")
  | .error e =>
    if e = .help ∨ e = .version then
      IO.println (usageText e)
      return 0
    else
      IO.eprintln (usageText e)
      return 2
