import Docket.Layout.Word
import Docket.Text.Case

/-! Phrases: runs of neighbouring words on one line. -/
namespace Docket

/-- Spacing that joins words to phrases. -/
structure PhraseRule (α : Type) where
  /-- Words whose tops differ by less are on one line. -/
  lineTolerance : α
  /-- Least gap that joins; a negative one allows overlap. -/
  minGap : α
  /-- Greatest gap that joins. -/
  maxGap : α
  /-- A wider gap always parts. -/
  breakGap : α
  /-- A greater shift always parts. -/
  breakShift : α

structure Phrase (α : Type) where
  words : List (Word α)
  box : Rect α

namespace Phrase

variable {α : Type} [Scalar α]

def standard : PhraseRule α :=
  ⟨Scalar.ofNat 8, -Scalar.ofNat 5, Scalar.ofNat 50, Scalar.ofNat 100, Scalar.ofNat 20⟩

/-- Word texts joined by single spaces. -/
def text (p : Phrase α) : String := Text.joined " " (p.words.map (·.text))

/-- Whether `next` goes on with the phrase that `last` ends. -/
def continues (rule : PhraseRule α) (last next : Word α) : Bool :=
  let shift := Scalar.abs (next.box.y - last.box.y)
  let gap := next.box.x - (last.box.x + last.box.width)
  if rule.breakGap < gap ∨ rule.breakShift < shift then false
  else shift < rule.lineTolerance && rule.minGap ≤ gap && gap ≤ rule.maxGap

/-- Cuts a list between neighbours that do not belong together. -/
def cutBetween (joins : Word α → Word α → Bool) : List (Word α) → List (List (Word α))
  | [] => []
  | [w] => [[w]]
  | a :: b :: rest =>
    match cutBetween joins (b :: rest) with
    | [] => [[a]]
    | run :: runs => if joins a b then (a :: run) :: runs else [a] :: run :: runs

/-- From top to bottom, then from left to right. -/
def byTop (a b : Word α) : Bool :=
  ((Scalar.order a.box.y b.box.y).then (Scalar.order a.box.x b.box.x)) != .gt

def byLeft (a b : Word α) : Bool := Scalar.order a.box.x b.box.x != .gt

/-- Lines from top to bottom, each from left to right. A line ends where the next top lies the
tolerance or more below. -/
def lines (rule : PhraseRule α) (ws : List (Word α)) : List (List (Word α)) :=
  (cutBetween (fun a b => b.box.y - a.box.y < rule.lineTolerance) (ws.mergeSort byTop)).map
    (·.mergeSort byLeft)

/-- A phrase of at least one word. -/
def ofWords? (ws : List (Word α)) : Option (Phrase α) :=
  (Word.boundingBox ws).map fun box => ⟨ws, box⟩

/-- All phrases of a page, line by line. -/
def build (rule : PhraseRule α) (ws : List (Word α)) : List (Phrase α) :=
  (lines rule ws).flatMap fun line => (cutBetween (continues rule) line).filterMap ofWords?

/-- The number of words from the front after which the joined small texts first contain the
needle. -/
def spanFrom (needle : String) (joined : String) : List (Word α) → Nat → Option Nat
  | [], _ => none
  | w :: rest, n =>
    let joined := (if n = 0 then "" else joined ++ " ") ++ Text.lower w.text
    if Text.contains joined needle then some (n + 1) else spanFrom needle joined rest (n + 1)

/-- The shortest runs from each word on, in order. -/
def spans (needle : String) : List (Word α) → List (List (Word α))
  | [] => []
  | w :: rest =>
    let here := match spanFrom needle "" (w :: rest) 0 with
      | some n => [(w :: rest).take n]
      | none => []
    here ++ spans needle rest

/-- The first of the shortest runs. -/
def shortest : List (List (Word α)) → Option (List (Word α))
  | [] => none
  | run :: runs =>
    match shortest runs with
    | some other => some (if other.length < run.length then other else run)
    | none => some run

/-- The box of the shortest run of words whose small text contains the needle. -/
def locate (p : Phrase α) (needle : String) : Option (Rect α) :=
  let needle := Text.lower (Text.trim needle)
  if needle.isEmpty then none
  else (shortest (spans needle p.words)).bind Word.boundingBox

end Phrase
end Docket
