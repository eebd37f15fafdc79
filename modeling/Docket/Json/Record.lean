import Docket.Json.Decoder
import Docket.Json.Passage

/-! Records: values with named fields. A record is written as an object, in which fields may
stand in any order and members of other names are passed over, or as a list of its fields
in order. -/
namespace Docket.Json

/-- How a record is written. -/
inductive Form
  | named
  | ordered

/-- Reads the fields of a record one by one, in any order, and puts them together. -/
structure RecordReader (α : Type) where
  /-- What has been read so far. -/
  State : Type
  blank : State
  /-- The names of the fields in order. -/
  names : List String
  /-- Whether the field of that number has been read. -/
  has : State → Nat → Bool
  scan : Nat → State → Nat → Cursor → Scan (State × Cursor)
  convert : Nat → State → Value → Except Fault State
  /-- The whole record, or the number of the first field that is missing. -/
  finish : Form → State → Except Nat α

namespace RecordReader

instance : Pure RecordReader where
  pure a :=
    { State := Unit, blank := (), names := [], has := fun _ _ => false
      scan := fun _ _ _ c => .ok ((), c), convert := fun _ _ _ => .ok ()
      finish := fun _ _ => .ok a }

instance : Functor RecordReader where
  map f r := { r with finish := fun form s => (r.finish form s).map f }

/-- The fields of one reader followed by those of another. -/
def seq {α β : Type} (f : RecordReader (α → β)) (r : RecordReader α) : RecordReader β :=
  let n := f.names.length
  { State := f.State × r.State
    blank := (f.blank, r.blank)
    names := f.names ++ r.names
    has := fun (s, t) i => if i < n then f.has s i else r.has t (i - n)
    scan := fun i (s, t) depth c =>
      if i < n then (f.scan i s depth c).map fun (s, c) => ((s, t), c)
      else (r.scan (i - n) t depth c).map fun (t, c) => ((s, t), c)
    convert := fun i (s, t) v =>
      if i < n then (f.convert i s v).map (·, t) else (r.convert (i - n) t v).map (s, ·)
    finish := fun form (s, t) => do
      let g ← f.finish form s
      match r.finish form t with
      | .ok a => return g a
      | .error i => throw (n + i) }

instance : Seq RecordReader := ⟨fun f r => seq f (r ())⟩

/-- A field: `absent` is its value where an object lacks it, `short` where a list ends before it. -/
def field {α : Type} (name : String) (d : Decoder α) (absent short : Option α) :
    RecordReader α where
  State := Option α
  blank := none
  names := [name]
  has s _ := s.isSome
  scan _ _ depth c := (d.scan depth c).map fun (a, c) => (some a, c)
  convert _ _ v := (d.convert v).map some
  finish form s :=
    let other := match form with
      | .named => absent
      | .ordered => short
    match s.or other with
    | some a => .ok a
    | none => .error 0

/-- A field that must be there. -/
def required {α : Type} (name : String) (d : Decoder α) : RecordReader α := field name d none none

/-- A field with a value of its own where it is absent. -/
def defaulted {α : Type} (name : String) (d : Decoder α) (value : α) : RecordReader α :=
  field name d (some value) (some value)

/-- A field that may be absent or null. -/
def optional {α : Type} (name : String) (d : Decoder α) : RecordReader (Option α) :=
  defaulted name (.option d) none

/-- A field that an object may leave out but a list may not. -/
def nullable {α : Type} (name : String) (d : Decoder α) : RecordReader (Option α) :=
  field name (.option d) (some none) none

variable {α : Type} (r : RecordReader α)

/-- The number of a field that has not been read; none for members of other names. -/
def fresh (s : r.State) (key : String) : Except Cause (Option Nat) :=
  match r.names.idxOf? key with
  | some i => if r.has s i then .error (.duplicateField key) else .ok (some i)
  | none => .ok none

/-- A member of a record, from behind its key. -/
def scanMember (depth : Nat) (s : r.State) (key : String) (c : Cursor) :
    Scan (r.State × Cursor) := do
  match r.fresh s key with
  | .error cause => throw (.pending cause c)
  | .ok (some i) => r.scan i s depth (← c.colon)
  | .ok none => return (s, ← (← c.colon).pass)

/-- The fields of a record in order, from field `i` on and as long as the list goes on. -/
def scanFields (depth i : Nat) : Nat → r.State → Cursor → Scan (r.State × Cursor)
  | 0, s, c => .ok (s, c)
  | n + 1, s, c => do
    match ← c.nextItem (i == 0) with
    | none => return (s, c)
    | some c =>
      let (s, c) ← r.scan i s depth c
      scanFields depth (i + 1) n s c

def convertMembers (s : r.State) : List (String × Value) → Except Fault r.State
  | [] => .ok s
  | (key, v) :: rest =>
    match r.fresh s key with
    | .error cause => .error ⟨cause, none⟩
    | .ok (some i) => do convertMembers (← r.convert i s v) rest
    | .ok none => convertMembers s rest

def convertFields (i : Nat) : Nat → r.State → List Value → Except Fault r.State
  | n + 1, s, v :: rest => do convertFields (i + 1) n (← r.convert i s v) rest
  | _, s, _ => .ok s

/-- The record that has been read, under the name it has in messages. -/
def settle (name : String) (form : Form) (s : r.State) : Except Cause α :=
  (r.finish form s).mapError fun i =>
    match form with
    | .named => .missingField (r.names.getD i "")
    | .ordered =>
      let n := r.names.length
      let elements := if n = 1 then "element" else "elements"
      .invalidLength i s!"struct {name} with {n} {elements}"

/-- A record with the given name. -/
def decoder (name : String) (r : RecordReader α) : Decoder α where
  scan depth c :=
    let settled (form : Form) : r.State × Cursor → Scan (α × Cursor) := fun (s, c) =>
      match r.settle name form s with
      | .ok a => .ok (a, c)
      | .error cause => .error (.pending cause c)
    let c := c.skip
    match c.rest with
    | '{' :: _ =>
      Container.object.within (fun depth c =>
        Cursor.foldMembers (r.scanMember depth) c.rest true r.blank c >>= settled .named) depth c
    | '[' :: _ =>
      Container.list.within (fun depth c =>
        r.scanFields depth 0 r.names.length r.blank c >>= settled .ordered) depth c
    | _ => c.mistyped s!"struct {name}"
  convert
    | .object ms => do
      let s ← r.convertMembers r.blank ms
      (r.settle name .named s).mapError (⟨·, none⟩)
    | .array vs => do
      let s ← r.convertFields 0 r.names.length r.blank vs
      let a ← (r.settle name .ordered s).mapError (⟨·, none⟩)
      if r.names.length < vs.length then
        throw ⟨.invalidLength vs.length "fewer elements in array", none⟩
      return a
    | v => v.mistyped s!"struct {name}"

end RecordReader
end Docket.Json
