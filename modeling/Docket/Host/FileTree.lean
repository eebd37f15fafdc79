import Docket.Host.Basic

/-! Trees of files: named files and folders below one root, and the operations on them. -/
namespace Docket

/-- Text, or a document in the form it is read in. -/
inductive Content
  | text (s : String)
  | document (d : Except PageError (Pdf.Document Float))

/-- A file with an identity that outlives its name, or a folder. -/
inductive FileEntry
  | file (id : Nat) (content : Content) (modified : Time)
  | folder (modified : Time)

namespace FileEntry

def kind : FileEntry → FileKind
  | file .. => .regular
  | folder _ => .folder

def modified : FileEntry → Time
  | file _ _ t => t
  | folder t => t

end FileEntry

/-- Names from the root down. -/
abbrev Location := List String

/-- The root is always there and has no entry. -/
structure FileTree where
  entries : List (Location × FileEntry)
  /-- The identity of the next file. -/
  nextId : Nat

namespace FileTree

def empty : FileTree := ⟨[], 0⟩

def entry? (t : FileTree) (place : Location) : Option FileEntry :=
  if place = [] then some (.folder 0) else t.entries.lookup place

def set (t : FileTree) (place : Location) (e : FileEntry) : FileTree :=
  { t with entries := (place, e) :: t.entries.filter (·.1 ≠ place) }

def erase (t : FileTree) (place : Location) : FileTree :=
  { t with entries := t.entries.filter (·.1 ≠ place) }

/-- Steps from a folder along the pieces of a path; the last name need not be there. -/
def walk (t : FileTree) : Location → List String → Except DiskError Location
  | here, [] => .ok here
  | here, piece :: rest =>
    match t.entry? here with
    | none => .error .notFound
    | some (.file ..) => .error .notFolder
    | some (.folder _) =>
      if piece = "" ∨ piece = "." then walk t here rest
      else if piece = ".." then walk t here.dropLast rest
      else if 255 < piece.utf8ByteSize then .error .nameTooLong
      else walk t (here ++ [piece]) rest

/-- Where a path leads, seen from a folder. -/
def locate (t : FileTree) (home : Location) (path : String) : Except DiskError Location :=
  if path = "" then .error .notFound
  else if path.toList.contains '\x00' then .error .zeroInName
  else t.walk (if Path.isAbsolute path then [] else home) (Path.pieces path)

/-- What a path leads to. -/
def find (t : FileTree) (home : Location) (path : String) :
    Except DiskError (Location × FileEntry) := do
  let place ← t.locate home path
  match t.entry? place with
  | some e => .ok (place, e)
  | none => .error .notFound

/-- A path without the slashes it ends with. -/
def withoutEnd (path : String) : String :=
  let bare := (path.toList.reverse.dropWhile (· == '/')).reverse
  if bare.isEmpty && !path.isEmpty then "/" else String.ofList bare

/-- Where a path puts a file; one that ends with a slash is for folders. -/
def target (t : FileTree) (home : Location) (path : String) : Except DiskError Location := do
  let place ← t.locate home (withoutEnd path)
  if Text.endsWith path "/" then .error .isFolder else .ok place

/-- The file a path leads to. -/
def file (t : FileTree) (home : Location) (path : String) :
    Except DiskError (Location × Nat × Content) := do
  match ← t.find home path with
  | (place, .file id content _) => .ok (place, id, content)
  | (_, .folder _) => .error .isFolder

/-- Puts a file of a new identity at a place. -/
def add (t : FileTree) (place : Location) (content : Content) (time : Time) : FileTree :=
  { t.set place (.file t.nextId content time) with nextId := t.nextId + 1 }

/-- Replaces the content of a file or makes a new one. -/
def write (t : FileTree) (home : Location) (path : String) (content : Content) (time : Time) :
    Except DiskError FileTree := do
  let place ← t.target home path
  match t.entry? place with
  | none => .ok (t.add place content time)
  | some (.file id _ _) => .ok (t.set place (.file id content time))
  | some (.folder _) => .error .isFolder

/-- Makes a file where there is none and tells its identity. -/
def create (t : FileTree) (home : Location) (path : String) (time : Time) :
    Except DiskError (Nat × FileTree) := do
  let place ← t.target home path
  match t.entry? place with
  | none => .ok (t.nextId, t.add place (.text "") time)
  | some _ => .error .taken

/-- Adds text to the file of an identity; a file that has lost its name has no place in the tree. -/
def append (t : FileTree) (id : Nat) (text : String) (time : Time) : FileTree :=
  let extended : Location × FileEntry → Location × FileEntry
    | (place, .file id' (.text old) modified) =>
      if id' = id then (place, .file id (.text (old ++ text)) time)
      else (place, .file id' (.text old) modified)
    | other => other
  { t with entries := t.entries.map extended }

def remove (t : FileTree) (home : Location) (path : String) : Except DiskError FileTree := do
  let (place, _) ← t.file home path
  .ok (t.erase place)

/-- Sets the time a file was last written. -/
def stamp (t : FileTree) (home : Location) (path : String) (time : Time) :
    Except DiskError FileTree := do
  let (place, id, content) ← t.file home path
  .ok (t.set place (.file id content time))

def makeFolder (t : FileTree) (home : Location) (path : String) (time : Time) :
    Except DiskError FileTree := do
  let place ← t.locate home (withoutEnd path)
  match t.entry? place with
  | none => .ok (t.set place (.folder time))
  | some _ => .error .taken

/-- Names of what a folder holds. -/
def names (t : FileTree) (home : Location) (path : String) : Except DiskError (List String) := do
  match ← t.find home path with
  | (_, .file ..) => .error .notFolder
  | (place, .folder _) =>
    .ok (t.entries.filterMap fun (other, _) =>
      if other.dropLast = place then other.getLast? else none)

end FileTree
end Docket
