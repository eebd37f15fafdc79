import Docket.Pdf.Font
import Docket.Pdf.TextState
import Docket.Pdf.WordBuilder

/-! The words of a page by its operations. -/
namespace Docket.Pdf

/-- A page that is being drawn. -/
structure Drawing (α : Type) where
  state : TextState α
  builder : WordBuilder α

namespace Drawing

variable {α : Type} [Scalar α]

/-- Reads the glyphs of a string in a font. -/
abbrev GlyphReader (α : Type) := String → Bytes → List (Char × α)

def start (left top : α) : Drawing α := ⟨.start, .start left top⟩

/-- Ends the word under way. -/
def flush (d : Drawing α) : Drawing α := { d with builder := d.builder.flush }

def change (f : TextState α → TextState α) (d : Drawing α) : Drawing α :=
  { d with state := f d.state }

/-- Draws one character and moves behind it. -/
def showGlyph (d : Drawing α) (c : Char) (width : α) : Drawing α :=
  let s := d.state
  let (x0, baseline) := s.pointAt 0
  let along := s.glyphAdvance width (c == ' ')
  let (x1, _) := s.pointAt along
  ⟨s.advance along, d.builder.push ⟨c, x0, x1, baseline, s.renderedSize⟩⟩

def showText (glyphs : GlyphReader α) (bytes : Bytes) (d : Drawing α) : Drawing α :=
  (glyphs d.state.font bytes).foldl (fun d (c, width) => d.showGlyph c width) d

/-- One item of a list of strings and distances. -/
def showItem (glyphs : GlyphReader α) (d : Drawing α) : Object α → Drawing α
  | .string bytes => d.showText glyphs bytes
  | other =>
    match other.number? with
    | some n => d.change fun s => s.advance (s.kerningAdvance n)
    | none => d

/-- Operand at a place; one that is no number is zero. -/
def operand (operands : List (Object α)) (i : Nat) : α :=
  ((operands[i]?).bind Object.number?).getD 0

/-- The first six operands as a matrix, if all are numbers. -/
def matrixOf (operands : List (Object α)) : Option (Matrix α) :=
  match (operands.take 6).mapM Object.number? with
  | some [a, b, c, d, e, f] => some ⟨a, b, c, d, e, f⟩
  | _ => none

def withMatrix (operands : List (Object α)) (f : Matrix α → TextState α → TextState α)
    (d : Drawing α) : Drawing α :=
  match matrixOf operands with
  | some m => d.change (f m)
  | none => d

/-- Shows the operand at a place if it is a string. -/
def showOperand (glyphs : GlyphReader α) (operands : List (Object α)) (i : Nat)
    (d : Drawing α) : Drawing α :=
  match (operands[i]?).bind Object.string? with
  | some bytes => d.showText glyphs bytes
  | none => d

def setFont (operands : List (Object α)) (s : TextState α) : TextState α :=
  { s with
    font := ((operands[0]?).bind Object.name?).getD s.font
    fontSize := ((operands[1]?).bind Object.number?).getD s.fontSize }

/-- Performs one operation. -/
def perform (glyphs : GlyphReader α) (d : Drawing α) (op : Operation α) : Drawing α :=
  let x := operand op.operands 0
  let y := operand op.operands 1
  match op.operator with
  | "q" => d.change .save
  | "Q" => d.change .restore
  | "cm" => d.withMatrix op.operands .concat
  | "BT" => d.flush.change .beginText
  | "ET" => d.flush
  | "Tf" => d.change (setFont op.operands)
  | "Tc" => d.change fun s => { s with charSpacing := x }
  | "Tw" => d.change fun s => { s with wordSpacing := x }
  | "Tz" => d.change fun s => { s with stretch := x / Scalar.ofNat 100 }
  | "TL" => d.change fun s => { s with leading := x }
  | "Ts" => d.change fun s => { s with rise := x }
  | "Td" => d.flush.change (.moveLine x y)
  | "TD" => d.flush.change fun s => { s with leading := -y }.moveLine x y
  | "Tm" => d.flush.withMatrix op.operands .setMatrix
  | "T*" => d.flush.change .nextLine
  | "Tj" => d.showOperand glyphs op.operands 0
  | "TJ" =>
    match (op.operands[0]?).bind Object.array? with
    | some items => items.foldl (showItem glyphs) d
    | _ => d
  | "'" => (d.flush.change .nextLine).showOperand glyphs op.operands 0
  | "\"" =>
    (d.flush.change fun s => { s with wordSpacing := x, charSpacing := y }.nextLine).showOperand
      glyphs op.operands 2
  | _ => d

/-- The words that operations draw on a page with the given left and top edge. -/
def words (glyphs : GlyphReader α) (left top : α) (ops : List (Operation α)) : List (Word α) :=
  (ops.foldl (perform glyphs) (start left top)).builder.finish

end Drawing
end Docket.Pdf
