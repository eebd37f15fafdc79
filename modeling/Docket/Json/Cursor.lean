import Docket.Json.Fault

/-! A record text while it is read: what is left of it, and the place reached. Places count
bytes, so the place behind one byte of a longer character lies inside that character. -/
namespace Docket.Json

/-- The text still to be read and the place of its start. -/
structure Cursor where
  rest : List Char
  line : Nat
  column : Nat

namespace Cursor

def ofText (s : String) : Cursor := ⟨s.toList, 1, 0⟩

def position (c : Cursor) : Position := ⟨c.line, c.column⟩

/-- Past one character. -/
def next (c : Cursor) : Cursor :=
  match c.rest with
  | [] => c
  | '\n' :: rest => ⟨rest, c.line + 1, 0⟩
  | ch :: rest => ⟨rest, c.line, c.column + ch.utf8Size⟩

/-- The place `n` bytes on, or the end of the text. -/
def positionAfter : Nat → Cursor → Position
  | n, ⟨rest, line, column⟩ => go n rest line column
where
  go : Nat → List Char → Nat → Nat → Position
    | _, [], line, column => ⟨line, column⟩
    | n, ch :: rest, line, column =>
      if n < ch.utf8Size then ⟨line, column + n⟩
      else if ch = '\n' then go (n - 1) rest (line + 1) 0
      else go (n - ch.utf8Size) rest line (column + ch.utf8Size)

/-- The place behind the next byte, or the end of the text. -/
def peekPosition (c : Cursor) : Position := c.positionAfter 1

/-- Past the characters of a class. -/
def pastAll (p : Char → Bool) (c : Cursor) : Cursor := go c.rest c
where
  go : List Char → Cursor → Cursor
    | [], c => c
    | ch :: rest, c => if p ch then go rest c.next else c

def isSpace (c : Char) : Bool := c == ' ' || c == '\n' || c == '\t' || c == '\r'

/-- Past leading spaces. -/
def skip (c : Cursor) : Cursor := c.pastAll isSpace

end Cursor

/-- Why reading stops: a fault at its place, or one that gets its place from the container
around it, when that is given up where reading stands. -/
inductive Stop
  | placed (cause : Cause) (position : Position)
  | pending (cause : Cause) (c : Cursor)

def Stop.fault : Stop → Fault
  | placed cause position => ⟨cause, some position⟩
  | pending cause _ => ⟨cause, none⟩

/-- What comes of reading a part of a text. -/
abbrev Scan := Except Stop

namespace Cursor

/-- A break of the grammar at the place reached. -/
def fault (c : Cursor) (g : Grammar) : Stop := .placed (.grammar g) c.position

/-- A break of the grammar by the next byte. -/
def peekFault (c : Cursor) (g : Grammar) : Stop := .placed (.grammar g) c.peekPosition

end Cursor
end Docket.Json
