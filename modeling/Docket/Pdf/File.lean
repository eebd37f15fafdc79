import Docket.Pdf.Document

/-! The file form of documents: a header, numbered objects, a table of their offsets with
a trailer, and near the end the offset of that table. -/
namespace Docket.Pdf.File
open Syntax

/-- Why the bytes of a file are no document. -/
inductive FileError
  | header | start | trailer
deriving DecidableEq

def FileError.message : FileError → String
  | header => "couldn't parse input: invalid file header"
  | start => "failed parsing cross reference table: invalid start value"
  | trailer => "couldn't parse input: invalid file trailer"

/-- Reads past one end of line. -/
def eol? : List Char → Option (List Char)
  | '\r' :: '\n' :: rest => some rest
  | '\n' :: rest => some rest
  | '\r' :: rest => some rest
  | _ => none

/-- A file starts with a line that names the format. -/
def hasHeader (cs : List Char) : Bool :=
  match word "%PDF-" cs with
  | some rest => (eol? (rest.dropWhile (!isEol ·))).isSome
  | none => false

/-- Where a word occurs last; `i` is the offset of the text given. -/
def lastAt (w : String) (i : Nat) : List Char → Option Nat
  | [] => none
  | c :: rest =>
    (lastAt w (i + 1) rest).or (if w.toList.isPrefixOf (c :: rest) then some i else none)

def lastFrom (w : String) (offset : Nat) (cs : List Char) : Option Nat :=
  lastAt w offset (cs.drop offset)

def endMark : String := "%%EOF"

/-- The offset of the table of objects. -/
def tableOffset? (cs : List Char) : Option Nat := do
  let mark ← lastFrom endMark (cs.length - 512) cs
  if mark ≤ 25 then none
  let start ← lastFrom "startxref" (mark - 25) cs
  let rest ← word "startxref" (cs.drop start)
  let rest ← eol? rest
  let (n, rest) ← number rest
  let rest ← eol? rest
  let _ ← word endMark rest
  let n ← n.integer?
  if n < 0 ∨ (cs.length : Int) < n then none else some n.toNat

/-- Offsets by object number. -/
abbrev Offsets := List (Nat × Nat)

/-- The lines of a section of the table, from an object number on; a free object has no offset. -/
def entryLines (first : Nat) : Nat → List Char → Option (Offsets × List Char)
  | 0, cs => some ([], cs)
  | n + 1, cs => do
    let (offset, rest) ← natural (twoTo 64) (skip cs)
    let (_, rest) ← natural (twoTo 32) (skip rest)
    let (inUse, rest) ← match skip rest with
      | 'n' :: rest => some (true, rest)
      | 'f' :: rest => some (false, rest)
      | _ => none
    let (more, rest) ← entryLines (first + 1) n rest
    return (if inUse then ((first, offset) :: more, rest) else (more, rest))

/-- Sections, each with its first number and its count. -/
def sections : Nat → List Char → Offsets × List Char
  | 0, cs => ([], cs)
  | n + 1, cs =>
    let section? := do
      let (first, rest) ← natural (twoTo 32) (skip cs)
      let (count, rest) ← natural (twoTo 32) (skip rest)
      entryLines first (min count cs.length) rest
    match section? with
    | some (offsets, rest) =>
      let (more, rest) := sections n rest
      (offsets ++ more, rest)
    | none => ([], cs)

/-- The table at an offset, with the trailer behind it. -/
def table? (cs : List Char) (offset : Nat) : Option (Offsets × Dictionary Float) := do
  let rest ← word "xref" (cs.drop offset)
  let (offsets, rest) := sections rest.length (skip rest)
  let rest ← word "trailer" (skip rest)
  let rest := skip rest
  let (o, _) ← dictionary (stepsFor rest) rest
  let trailer ← o.dictionary?
  let _ ← (trailer.lookup "Size").bind Object.integer?
  return (offsets, trailer)

/-- The tables from one on back to the first; a newer one counts before an older one. -/
def tables (cs : List Char) : Nat → Nat → Offsets
  | 0, _ => []
  | n + 1, offset =>
    match table? cs offset with
    | none => []
    | some (offsets, trailer) =>
      match (trailer.lookup "Prev").bind Object.integer? with
      | some older => offsets ++ tables cs n older.toNat
      | none => offsets

/-- The object at an offset, without the data of a stream. -/
def objectAt? (cs : List Char) (offset : Nat) : Option (Object Float × List Char) := do
  let (_, rest) ← natural (twoTo 32) (skip (cs.drop offset))
  let (_, rest) ← natural (twoTo 16) (skip rest)
  let rest ← word "obj" (skip rest)
  let rest := skip rest
  object true (stepsFor rest) rest

/-- The length of a stream, which may be an object of its own. -/
def streamLength? (cs : List Char) (offsets : Offsets) (entries : Dictionary Float) :
    Option Nat :=
  match entries.lookup "Length" with
  | some (.integer n) => some n.toNat
  | some (.reference id) => do
    let (o, _) ← objectAt? cs (← offsets.lookup id)
    (o.integer?).map Int.toNat
  | _ => none

/-- The object at an offset. -/
def load? (cs : List Char) (offsets : Offsets) (offset : Nat) : Option (Object Float) := do
  let (o, rest) ← objectAt? cs offset
  match o.dictionary?, word "stream" (skip rest) with
  | some entries, some rest =>
    let data ← eol? rest
    let length ← streamLength? cs offsets entries
    if data.length < length then none else some (.stream entries (bytesOf (data.take length)))
  | _, _ => some o

/-- The document that the bytes of a file write. -/
def read (data : Bytes) : Except FileError (Document Float) :=
  let cs := textOf data
  if !hasHeader cs then .error .header
  else
    match tableOffset? cs with
    | none => .error .start
    | some offset =>
      match table? cs offset with
      | none => .error .trailer
      | some (_, trailer) =>
        let offsets := tables cs cs.length offset
        let objects := offsets.filterMap fun (id, place) =>
          (load? cs offsets place).map fun o => (id, o)
        .ok ⟨objects, trailer⟩

/-- Opens the document in a file. -/
def openBytes (data : Bytes) : Except PageError (Document Float) :=
  match read data with
  | .error e => .error (.parse e.message)
  | .ok doc => doc.checked

end Docket.Pdf.File
