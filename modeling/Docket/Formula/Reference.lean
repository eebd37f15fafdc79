import Docket.Text.Case
import Docket.Text.Trim
import Docket.Number.Reading

/-! References to named values, written `[Kind:Name]` or `[Kind:Name#Id]`. -/
namespace Docket.Formula

/-- Where a reference looks for its value. -/
inductive Kind
  | input | calculated | parameter | constant
deriving DecidableEq

namespace Kind

def word : Kind → String
  | input => "Input"
  | calculated => "Calculated"
  | parameter => "Variable"
  | constant => "Constant"

def every : List Kind := [input, calculated, parameter, constant]

/-- The kind of a word in any case, with white space around it. -/
def read? (text : List Char) : Option Kind :=
  let key := Text.lower (String.ofList (Text.trimChars text))
  (every.map fun k => (Text.lower k.word, k)).lookup key

end Kind

structure Reference where
  kind : Kind
  name : String
  id : Option Nat
deriving DecidableEq

namespace Reference

/-- The text of a reference with its brackets. -/
def display (r : Reference) : String :=
  match r.id with
  | some id => s!"[{r.kind.word}:{r.name}#{id}]"
  | none => s!"[{r.kind.word}:{r.name}]"

/-- The name and the identifier behind the last hash sign, if there is one; an identifier that is
no 32-bit number refuses the whole. -/
def readName? (text : List Char) : Option (List Char × Option Nat) :=
  match Text.cutLast? '#' text with
  | none => some (text, none)
  | some (name, id) =>
    (Reading.unsigned? (twoTo 32) (Text.trimChars id)).map fun n => (name, some n)

/-- Reads what stands between the brackets. -/
def read? (inner : List Char) : Option Reference := do
  let (kind, rest) ← Text.cutFirst? ':' inner
  let kind ← Kind.read? kind
  let (name, id) ← readName? rest
  let name := Text.trimChars name
  if name.isEmpty then none else some ⟨kind, String.ofList name, id⟩

end Reference
end Docket.Formula
