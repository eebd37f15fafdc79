import Docket.Path
import Docket.Pdf.File
import Docket.Timestamp

/-! What a program asks of the machine it runs on: files, the clock and names that nobody
else has. Operations name their failures; the machine decides how they are carried out. -/
namespace Docket

inductive DiskError
  | notFound | taken | notFolder | isFolder | nameTooLong | zeroInName | notText
  | other (text : String)
deriving DecidableEq

def DiskError.message : DiskError → String
  | notFound => "No such file or directory (os error 2)"
  | taken => "File exists (os error 17)"
  | notFolder => "Not a directory (os error 20)"
  | isFolder => "Is a directory (os error 21)"
  | nameTooLong => "File name too long (os error 36)"
  | zeroInName => "file name contained an unexpected NUL byte"
  | notText => "stream did not contain valid UTF-8"
  | other text => text

/-- What stands at a path; a special file is neither a regular one nor a folder. -/
inductive FileKind
  | regular | folder | special
deriving DecidableEq

class Host (m : Type → Type) where
  /-- A file that has been created and can be written to, whatever becomes of its name. -/
  Handle : Type
  /-- What stands at a path, if anything can be reached there. -/
  kind? (path : String) : m (Option FileKind)
  /-- When the file or folder was last written. -/
  modified? (path : String) : m (Option Time)
  readText (path : String) : m (Except DiskError String)
  /-- Opens a document; the inner error is about its content. -/
  readDocument (path : String) :
    m (Except DiskError (Except PageError (Pdf.Document Float)))
  /-- Replaces the content of a file or makes a new one. -/
  writeText (path text : String) : m (Except DiskError Unit)
  /-- Makes a file where there is none. -/
  create (path : String) : m (Except DiskError Handle)
  append (file : Handle) (text : String) : m (Except DiskError Unit)
  remove (path : String) : m (Except DiskError Unit)
  /-- Sets the time a file was last written to the present. -/
  touch (path : String) : m (Except DiskError Unit)
  makeFolder (path : String) : m (Except DiskError Unit)
  /-- Names of what a folder holds. -/
  names (path : String) : m (Except DiskError (List String))
  now : m Time
  processId : m Nat
  /-- A text that no other call gives. -/
  uniqueText : m String

namespace Host

variable {m : Type → Type} [Monad m] [Host m]

/-- Whether there is anything at a path. -/
def isThere (path : String) : m Bool := do return (← kind? path).isSome

def isRegular (path : String) : m Bool := do return (← kind? path) = some .regular

def isFolder (path : String) : m Bool := do return (← kind? path) = some .folder

/-- A failed attempt to make a folder that is there counts as success. -/
def settleFolder (path : String) (result : Except DiskError Unit) : m (Except DiskError Unit) := do
  match result with
  | .ok () => return .ok ()
  | .error e => return if ← isFolder path then .ok () else .error e

/-- Makes a folder and those above it, given the parts of its path from the last to the first. -/
def makeFoldersUp : List Path.Part → m (Except DiskError Unit)
  | [] => return .ok ()
  | part :: above => do
    let path := Path.ofParts (above.reverse ++ [part])
    match ← makeFolder path with
    | .error .notFound =>
      match ← makeFoldersUp above with
      | .ok () => settleFolder path (← makeFolder path)
      | .error e => return .error e
    | result => settleFolder path result

/-- Makes a folder and all that lead to it. -/
def makeFolders (path : String) : m (Except DiskError Unit) :=
  makeFoldersUp (Path.parts path).reverse

/-- Makes the folders that lead to a file. -/
def makeParents (path : String) : m (Except DiskError Unit) :=
  match Path.parent? path with
  | some parent => makeFolders parent
  | none => return .ok ()

end Host
end Docket
