import Docket.Pdf.Coding
import Docket.Pdf.Syntax

/-! Fonts: how a shown string becomes characters, each with its width. -/
namespace Docket.Pdf

/-- Widths are in thousandths of the font size. -/
structure Font (α : Type) where
  coding : Coding
  /-- Code of the first width. -/
  firstCode : Int64
  widths : List α

namespace Font

variable {α : Type}

/-- The font of a name that is not defined. -/
def unknown : Font α := ⟨.raw, 0, []⟩

variable [Scalar α]

/-- Width of a glyph that has none of its own. -/
def standardWidth : α := Scalar.ofNat 500

/-- The width of a one-byte code; only positive ones count. -/
def width (f : Font α) (code : UInt8) : α :=
  let index := (Int64.ofNat code.toNat - f.firstCode).toInt
  let own := if 0 ≤ index then f.widths[index.toNat]? else none
  match own with
  | some w => if 0 < w then w else standardWidth
  | none => standardWidth

/-- The characters of a string with their widths. Where characters and bytes do not pair up, the
widths are the standard one. -/
def glyphs (f : Font α) (bytes : Bytes) : List (Char × α) :=
  let chars := f.coding.decode bytes
  if chars.length = bytes.length then
    (chars.zip bytes).map fun (c, code) => (c, f.width code)
  else chars.map fun c => (c, standardWidth)

/-- The numbers of a width table; an entry that is no number has the standard width. -/
def widthsOf (doc : Document α) (entries : Dictionary α) : List α :=
  match ((entries.lookup "Widths").bind doc.resolve).bind Object.array? with
  | some items => items.map fun o => o.number?.getD standardWidth
  | none => []

end Font

/-- The tables of one-byte encodings by name. -/
def ByteTable.named? (name : String) : Option ByteTable :=
  [("StandardEncoding", standard), ("MacRomanEncoding", macRoman),
    ("MacExpertEncoding", macExpert), ("WinAnsiEncoding", winAnsi),
    ("PDFDocEncoding", pdfDoc)].lookup name

namespace UnicodeMap
open Syntax

/-- The pairs of strings that stand between the words of a map's character lists. -/
def readPairs : Nat → List Char → List (Bytes × List Nat) × List Char
  | 0, cs => ([], cs)
  | n + 1, cs =>
    match hexadecimal (skip cs) with
    | none => ([], cs)
    | some (code, rest) =>
      match hexadecimal (skip rest) with
      | none => ([], cs)
      | some (units, rest) =>
        let (pairs, rest) := readPairs n rest
        ((code, unitsOf units) :: pairs, rest)

/-- The next code of the same length. -/
def successor (code : Bytes) : Bytes :=
  let n := code.foldl (fun n b => 256 * n + b.toNat) 0 + 1
  (List.range code.length).reverse.map fun i => (n / twoTo (8 * i) % 256).toUInt8

/-- The codes from `first` on, each with the next last unit. -/
def spread (first : Bytes) (units : List Nat) : Nat → List (Bytes × List Nat)
  | 0 => []
  | n + 1 =>
    let next := match units.reverse with
      | u :: us => ((u + 1) :: us).reverse
      | [] => []
    (first, units) :: spread (successor first) next n

def numberOf (code : Bytes) : Nat := code.foldl (fun n b => 256 * n + b.toNat) 0

/-- Ranges of codes with the units of their first code. -/
def readRanges : Nat → List Char → List (Bytes × List Nat) × List Char
  | 0, cs => ([], cs)
  | n + 1, cs =>
    let range? := do
      let (first, rest) ← hexadecimal (skip cs)
      let (last, rest) ← hexadecimal (skip rest)
      let (units, rest) ← hexadecimal (skip rest)
      return (spread first (unitsOf units) (numberOf last + 1 - numberOf first), rest)
    match range? with
    | none => ([], cs)
    | some (pairs, rest) =>
      let (more, rest) := readRanges n rest
      (pairs ++ more, rest)

def readLists : Nat → List Char → List (Bytes × List Nat)
  | 0, _ => []
  | _ + 1, [] => []
  | n + 1, c :: rest =>
    match word "beginbfchar" (c :: rest), word "beginbfrange" (c :: rest) with
    | some body, _ =>
      let (pairs, rest) := readPairs n body
      pairs ++ readLists n rest
    | _, some body =>
      let (pairs, rest) := readRanges n body
      pairs ++ readLists n rest
    | none, none => readLists n rest

/-- The map that a stream writes; of codes given twice the last counts. -/
def ofBytes (data : Bytes) : UnicodeMap :=
  let cs := textOf data
  ⟨(readLists (cs.length + 1) cs).reverse⟩

end UnicodeMap

namespace Font

variable {α : Type}

/-- The map of a font from codes to text. -/
def unicodeMap? (doc : Document α) (entries : Dictionary α) : Option UnicodeMap :=
  match (entries.lookup "ToUnicode").bind doc.resolve with
  | some (.stream _ data) => some (.ofBytes data)
  | _ => none

/-- The coding of a font. A named one-byte table counts before a map; a map is used where no table
is named or codes are passed through; without either the standard table is used. -/
def codingOf (doc : Document α) (entries : Dictionary α) : Coding :=
  if (entries.lookup "Type").bind Object.name? ≠ some "Font" then .raw
  else
    match (entries.lookup "Encoding").bind Object.name? with
    | none =>
      match unicodeMap? doc entries with
      | some m => .map m
      | none => .table ByteTable.standard
    | some "Identity-H" =>
      match unicodeMap? doc entries with
      | some m => .map m
      | none => .raw
    | some "UniGB-UCS2-H" => .wide
    | some other =>
      match ByteTable.named? other with
      | some t => .table t
      | none => .raw

def ofDictionary [Scalar α] (doc : Document α) (entries : Dictionary α) : Font α where
  coding := codingOf doc entries
  firstCode := Int64.ofInt (((entries.lookup "FirstChar").bind Object.integer?).getD 0)
  widths := widthsOf doc entries

end Font
end Docket.Pdf
