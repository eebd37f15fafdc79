import Docket.Layout.Word

/-! Glyphs gathered to words. White space parts words, except for the spaces that keep
digits together; so do gaps, steps back and changes of the line. -/
namespace Docket.Pdf

/-- A word that is being gathered. -/
structure PendingWord (α : Type) where
  text : String
  x0 : α
  x1 : α
  baseline : α
  size : α

structure WordBuilder (α : Type) where
  /-- Left edge of the page. -/
  left : α
  /-- Top edge of the page. -/
  top : α
  words : List (Word α)
  pending : Option (PendingWord α)

/-- One glyph on the page: from `x0` to `x1` on a baseline. -/
structure Glyph (α : Type) where
  char : Char
  x0 : α
  x1 : α
  baseline : α
  size : α

/-- Spaces that group digits inside one word. -/
def isNoBreakSpace (c : Char) : Bool := c == '\u00a0' || c == '\u202f'

/-- Characters that end a word and are not shown. -/
def isSeparator (c : Char) : Bool :=
  (Text.isBlank c && !isNoBreakSpace c) || Text.isControl c

namespace WordBuilder

variable {α : Type}

def start (left top : α) : WordBuilder α := ⟨left, top, [], none⟩

variable [Scalar α]

/-- Part of the size that lies above the baseline. -/
def ascent : α := Scalar.ratio 8 10

/-- The word in page coordinates from the top left corner. -/
def place (b : WordBuilder α) (p : PendingWord α) : Word α :=
  let top := p.baseline + p.size * ascent
  ⟨p.text, ⟨Scalar.min p.x0 p.x1 - b.left, b.top - top, Scalar.abs (p.x1 - p.x0), p.size⟩⟩

/-- Ends the word that is being gathered. -/
def flush (b : WordBuilder α) : WordBuilder α :=
  match b.pending with
  | some p => { b with words := b.words ++ [b.place p], pending := none }
  | none => b

/-- Whether a glyph goes on with a word: on its line, without a gap or a step back. -/
def continues (p : PendingWord α) (g : Glyph α) : Bool :=
  let sameLine : Bool :=
    Scalar.abs (g.baseline - p.baseline) < Scalar.max p.size g.size * Scalar.ratio 1 2
  let gap := g.x0 - p.x1
  !(!sameLine || g.size * Scalar.ratio 1 4 < gap || gap < -g.size)

def begin (g : Glyph α) : PendingWord α :=
  ⟨String.ofList [g.char], g.x0, g.x1, g.baseline, g.size⟩

def extend (p : PendingWord α) (g : Glyph α) : PendingWord α :=
  { p with text := p.text.push g.char, x1 := g.x1, size := Scalar.max p.size g.size }

/-- Adds a glyph. -/
def push (b : WordBuilder α) (g : Glyph α) : WordBuilder α :=
  if isSeparator g.char then b.flush
  else
    match b.pending with
    | none => { b with pending := some (begin g) }
    | some p =>
      if continues p g then { b with pending := some (extend p g) }
      else { b.flush with pending := some (begin g) }

def finish (b : WordBuilder α) : List (Word α) := b.flush.words

end WordBuilder
end Docket.Pdf
