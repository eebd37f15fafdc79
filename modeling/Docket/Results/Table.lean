import Docket.Text.Trim

/-! Tables as text: a line a row, fields between commas, and quotes around fields that hold
a comma, a quote or the end of a line. -/
namespace Docket.Table

abbrev Row := List String

def needsQuotes (field : String) : Bool :=
  field.toList.any fun c => c == ',' || c == '"' || c == '\n' || c == '\r'

/-- A quote inside quotes is written twice. -/
def quoted (field : String) : String :=
  let double (c : Char) : List Char := if c = '"' then ['"', '"'] else [c]
  String.ofList ('"' :: field.toList.flatMap double ++ ['"'])

def writeField (field : String) : String := if needsQuotes field then quoted field else field

/-- A row of one empty field is quoted, as an empty line would be no row. -/
def writeRow (row : Row) : String :=
  (if row = [""] then "\"\"" else Text.joined "," (row.map writeField)) ++ "\n"

def write (rows : List Row) : String := String.join (rows.map writeRow)

/-- How far a table has been read: the field and the row at hand, and the rows before. -/
structure Progress where
  /-- Characters of the field, the last one first. -/
  field : List Char
  row : Row
  rows : List Row
  /-- Whether anything of the row at hand has been read. -/
  isOpen : Bool

namespace Progress

def start : Progress := ⟨[], [], [], false⟩

def push (p : Progress) (c : Char) : Progress := { p with field := c :: p.field, isOpen := true }

def endField (p : Progress) : Progress :=
  { p with field := [], row := p.row ++ [String.ofList p.field.reverse], isOpen := true }

/-- Ends a row; an empty line is none. -/
def endRow (p : Progress) : Progress :=
  if p.isOpen then
    let p := p.endField
    { p with row := [], rows := p.rows ++ [p.row], isOpen := false }
  else p

end Progress

/-- Reads characters inside or outside quotes. -/
def readFrom (p : Progress) : Bool → List Char → Progress
  | _, [] => p.endRow
  | true, '"' :: '"' :: rest => readFrom (p.push '"') true rest
  | true, '"' :: rest => readFrom p false rest
  | true, c :: rest => readFrom (p.push c) true rest
  | false, '"' :: rest =>
    if p.field.isEmpty then readFrom { p with isOpen := true } true rest
    else readFrom (p.push '"') false rest
  | false, ',' :: rest => readFrom p.endField false rest
  | false, '\n' :: rest | false, '\r' :: rest => readFrom p.endRow false rest
  | false, c :: rest => readFrom (p.push c) false rest

def read (text : String) : List Row := (readFrom .start false text.toList).rows

end Docket.Table
