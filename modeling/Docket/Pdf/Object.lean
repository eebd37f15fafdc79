import Docket.Scalar

/-! Objects of PDF documents and the references between them. A name is held as a text
with one character for each of its bytes. -/
namespace Docket.Pdf

abbrev Bytes := List UInt8

inductive Object (α : Type)
  | null
  | bool (b : Bool)
  | integer (n : Int)
  | real (x : α)
  | string (bytes : Bytes)
  | name (text : String)
  | array (items : List (Object α))
  | dictionary (entries : List (String × Object α))
  | stream (entries : List (String × Object α)) (data : Bytes)
  | reference (id : Nat)

/-- The entries of a dictionary; of equal keys the first counts. -/
abbrev Dictionary (α : Type) := List (String × Object α)

namespace Object

variable {α : Type}

instance : Inhabited (Object α) := ⟨null⟩

def name? : Object α → Option String
  | name s => some s
  | _ => none

def array? : Object α → Option (List (Object α))
  | array items => some items
  | _ => none

def string? : Object α → Option Bytes
  | string bytes => some bytes
  | _ => none

def reference? : Object α → Option Nat
  | reference id => some id
  | _ => none

def dictionary? : Object α → Option (Dictionary α)
  | dictionary entries => some entries
  | _ => none

def integer? : Object α → Option Int
  | integer n => some n
  | _ => none

variable [Scalar α]

def ofInt (n : Int) : α := if n < 0 then -Scalar.ofNat n.natAbs else Scalar.ofNat n.natAbs

/-- The value of a number. -/
def number? : Object α → Option α
  | integer n => some (ofInt n)
  | real x => some x
  | _ => none

end Object

/-- A document: its numbered objects and the entries of its trailer. -/
structure Document (α : Type) where
  objects : List (Nat × Object α)
  trailer : Dictionary α

namespace Document

variable {α : Type}

/-- Longest chain of references that is followed. -/
def referenceLimit : Nat := 128

/-- Follows references to an object that is none. -/
def follow (doc : Document α) : Nat → Object α → Option (Object α)
  | 0, _ => none
  | n + 1, .reference id => (doc.objects.lookup id).bind (doc.follow n)
  | _ + 1, o => some o

/-- The object itself, or the one it refers to. -/
def resolve (doc : Document α) (o : Object α) : Option (Object α) :=
  doc.follow (referenceLimit + 1) o

def object? (doc : Document α) (id : Nat) : Option (Object α) := doc.resolve (.reference id)

def dictionary? (doc : Document α) (id : Nat) : Option (Dictionary α) :=
  (doc.object? id).bind Object.dictionary?

end Document
end Docket.Pdf
