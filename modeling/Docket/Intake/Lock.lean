import Docket.Host.Basic

/-! The lock on the intake folder: a file that names its holder. An attempt to take it goes
through steps that each ask the machine for one thing, so that the attempts of several
processes may mix. A lock that has not been written to for long is taken over. -/
namespace Docket

/-- A held lock. -/
structure Lock where
  path : String
  token : String
deriving DecidableEq

namespace Lock

/-- Name of the lock file in the intake folder. -/
def fileName : String := ".docfield.lock"

def tokenLine (token : String) : String := "token=" ++ token

/-- The lines a holder writes. -/
def lines (processId : Nat) (token : String) (time : Time) : List String :=
  [s!"pid={processId}\n", tokenLine token ++ "\n",
    s!"acquired_at={(Timestamp.ofTime time).displayOffset}\n"]

/-- How far an attempt to take the lock has come. -/
inductive Attempt (handle : Type)
  /-- About to look at the age of a lock file that may be there. -/
  | looking
  /-- Has found a lock file of no use and is about to remove it. -/
  | clearing
  /-- About to make the lock file. -/
  | creating
  /-- Has made the file and still has lines to write. -/
  | writing (file : handle) (lock : Lock) (left : List String)
  /-- Has the lock, or has left it to its holder. -/
  | done (result : Except DiskError (Option Lock))

/-- What is asked for: the lock file and the age, in nanoseconds, that makes it useless. -/
structure Request where
  path : String
  staleAfter : Nat

def Request.of (folder : String) (staleSeconds : Nat) : Request :=
  ⟨Path.join folder fileName, staleSeconds * 1000000000⟩

/-- Time since a file was written; a time to come counts as the present. -/
def age (now written : Time) : Nat := (now - written).toNat

variable {m : Type → Type} [Monad m] [Host m]

/-- The next step of an attempt. -/
def Attempt.step (r : Request) : Attempt (Host.Handle m) → m (Attempt (Host.Handle m))
  | looking => do
    match ← Host.modified? r.path with
    | none => return creating
    | some written =>
      if age (← Host.now) written < r.staleAfter then return done (.ok none) else return clearing
  | clearing => do
    match ← Host.remove r.path with
    | .ok () | .error .notFound => return creating
    | .error e => return done (.error e)
  | creating => do
    match ← Host.create r.path with
    | .ok file =>
      let processId ← Host.processId
      let token := s!"{processId}-{← Host.uniqueText}"
      return writing file ⟨r.path, token⟩ (lines processId token (← Host.now))
    | .error .taken => return done (.ok none)
    | .error e => return done (.error e)
  | writing _ lock [] => return done (.ok (some lock))
  | writing file lock (line :: left) => do
    match ← Host.append file line with
    | .error e => return done (.error e)
    | .ok () => return if left.isEmpty then done (.ok (some lock)) else writing file lock left
  | done result => return done result

/-- So many steps of an attempt. -/
def Attempt.steps (r : Request) :
    Nat → Attempt (Host.Handle m) → m (Attempt (Host.Handle m))
  | 0, a => return a
  | n + 1, a => do a.step r >>= Attempt.steps r n

/-- The most steps an attempt takes. -/
def Attempt.most : Nat := 6

/-- Tries to take the lock; none if another holds it. -/
def acquire (r : Request) : m (Except DiskError (Option Lock)) := do
  match ← (Attempt.looking : Attempt (Host.Handle m)).steps r Attempt.most with
  | .done result => return result
  | _ => return .ok none

/-- A line without the mark of its end. -/
def withoutEnd (line : List Char) : List Char :=
  if line.getLast? = some '\r' then line.dropLast else line

/-- The lines of a text; the last one ends with the text. -/
def linesOf (text : String) : List String :=
  let pieces := Text.split '\n' text.toList
  (pieces.dropLast.map withoutEnd ++ pieces.drop (pieces.length - 1)).map String.ofList

/-- Whether a lock file names this holder. -/
def isNamed (l : Lock) (text : String) : Bool := (linesOf text).contains (tokenLine l.token)

/-- Whether the lock file still names this holder. -/
def isOwned (l : Lock) : m Bool := do
  match ← Host.readText l.path with
  | .ok text => return l.isNamed text
  | .error _ => return false

/-- Makes an owned lock fresh; false if it belongs to another by now. -/
def refresh (l : Lock) : m (Except DiskError Bool) := do
  if ← l.isOwned then return (← Host.touch l.path).map fun () => true else return .ok false

/-- Removes the lock file if it is owned. -/
def release (l : Lock) : m Unit := do
  if ← l.isOwned then
    let _ ← Host.remove l.path

end Lock
end Docket
