import Docket.Scalar

/-! The state of a page that is being drawn, as far as text depends on it: affine maps of the plane,
on row vectors, and how text is shown. Saving keeps the current matrix only. -/
namespace Docket.Pdf

/-- Maps `(x, y)` to `(x·a + y·c + e, x·b + y·d + f)`. -/
structure Matrix (α : Type) where
  a : α
  b : α
  c : α
  d : α
  e : α
  f : α
deriving DecidableEq

namespace Matrix

variable {α : Type} [Scalar α]

def identity : Matrix α := ⟨1, 0, 0, 1, 0, 0⟩

def translation (x y : α) : Matrix α := ⟨1, 0, 0, 1, x, y⟩

/-- First `m`, then `n`. -/
def andThen (m n : Matrix α) : Matrix α where
  a := m.a * n.a + m.b * n.c
  b := m.a * n.b + m.b * n.d
  c := m.c * n.a + m.d * n.c
  d := m.c * n.b + m.d * n.d
  e := m.e * n.a + m.f * n.c + n.e
  f := m.e * n.b + m.f * n.d + n.f

def map (m : Matrix α) (x y : α) : α × α :=
  (x * m.a + y * m.c + m.e, x * m.b + y * m.d + m.f)

/-- Length of the image of the upward unit vector. -/
def verticalScale (m : Matrix α) : α := Scalar.sqrt (m.c * m.c + m.d * m.d)

end Matrix
structure TextState (α : Type) where
  /-- From user space to the page. -/
  ctm : Matrix α
  /-- Matrices that have been saved, the last first. -/
  saved : List (Matrix α)
  /-- From text space to user space. -/
  matrix : Matrix α
  /-- Where the current line starts. -/
  lineMatrix : Matrix α
  font : String
  fontSize : α
  charSpacing : α
  wordSpacing : α
  /-- Horizontal scaling as a factor. -/
  stretch : α
  leading : α
  rise : α

namespace TextState

variable {α : Type}

def save (s : TextState α) : TextState α := { s with saved := s.ctm :: s.saved }

/-- Returns to the matrix saved last, if there is one. -/
def restore (s : TextState α) : TextState α :=
  match s.saved with
  | m :: rest => { s with ctm := m, saved := rest }
  | [] => s

variable [Scalar α]

def start : TextState α where
  ctm := .identity
  saved := []
  matrix := .identity
  lineMatrix := .identity
  font := ""
  fontSize := Scalar.ofNat 12
  charSpacing := 0
  wordSpacing := 0
  stretch := 1
  leading := 0
  rise := 0

/-- Puts a map before the current one. -/
def concat (m : Matrix α) (s : TextState α) : TextState α := { s with ctm := m.andThen s.ctm }

def beginText (s : TextState α) : TextState α :=
  { s with matrix := .identity, lineMatrix := .identity }

/-- Starts a line with a matrix of its own. -/
def setMatrix (m : Matrix α) (s : TextState α) : TextState α :=
  { s with matrix := m, lineMatrix := m }

/-- Starts a line at an offset from the start of the current one. -/
def moveLine (x y : α) (s : TextState α) : TextState α :=
  s.setMatrix ((Matrix.translation x y).andThen s.lineMatrix)

/-- Starts the line below. -/
def nextLine (s : TextState α) : TextState α := s.moveLine 0 (-s.leading)

/-- Moves along the line. -/
def advance (x : α) (s : TextState α) : TextState α :=
  { s with matrix := (Matrix.translation x 0).andThen s.matrix }

/-- Units of a glyph width in the font size. -/
def unitsPerEm : α := Scalar.ofNat 1000

/-- How far a glyph of a width moves along. -/
def glyphAdvance (width : α) (isSpace : Bool) (s : TextState α) : α :=
  let spacing := s.charSpacing + (if isSpace then s.wordSpacing else 0)
  (width / unitsPerEm * s.fontSize + spacing) * s.stretch

/-- How far a number between the strings of a list moves along. -/
def kerningAdvance (adjustment : α) (s : TextState α) : α :=
  -adjustment / unitsPerEm * s.fontSize * s.stretch

def toPage (s : TextState α) : Matrix α := s.matrix.andThen s.ctm

/-- Place on the page at a distance along the line. -/
def pointAt (x : α) (s : TextState α) : α × α := s.toPage.map x s.rise

/-- Font size on the page. -/
def renderedSize (s : TextState α) : α := Scalar.abs (s.fontSize * s.toPage.verticalScale)

end TextState
end Docket.Pdf
