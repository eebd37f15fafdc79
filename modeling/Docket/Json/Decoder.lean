import Docket.Json.Container

/-! Typed reading. A decoder reads its type from a text and from a value in memory; in a text
the fault that is met first wins. -/
namespace Docket.Json

structure Decoder (α : Type) where
  /-- From a text, in which so many more containers may be opened. -/
  scan : Nat → Cursor → Scan (α × Cursor)
  /-- From a value in memory. -/
  convert : Value → Except Fault α

/-- A value that starts here and is of another kind than expected. -/
def Cursor.mistyped {α : Type} (expected : String) (c : Cursor) : Scan (α × Cursor) := do
  let (kind, behind) ← c.kind
  throw (.placed (kind.mistyped expected) behind.position)

def Value.mistyped {α : Type} (expected : String) (v : Value) : Except Fault α :=
  .error ⟨v.kind.mistyped expected, none⟩

namespace Decoder

instance : Functor Decoder where
  map f d := ⟨fun depth c => (d.scan depth c).map fun (a, c) => (f a, c),
    fun v => (d.convert v).map f⟩

/-- Reads an atom; containers are to be refused. -/
def ofKind {α : Type} (read : Kind → Except Cause α) : Decoder α where
  scan _ c := do
    let (kind, behind) ← c.kind
    match read kind with
    | .ok a => return (a, behind)
    | .error cause => throw (.placed cause behind.position)
  convert v := (read v.kind).mapError (⟨·, none⟩)

def float : Decoder Float := ofKind fun
  | .atom (.number n) => .ok n.toFloat
  | kind => .error (kind.mistyped "f64")

/-- An integer of a range; `name` is what the range is called. -/
def integer (lo hi : Int) (name : String) : Decoder Int := ofKind fun
  | .atom (.number (.whole n)) =>
    if lo ≤ n ∧ n ≤ hi then .ok n
    else .error (.invalidValue (Atom.number (.whole n)).describe name)
  | kind => .error (kind.mistyped name)

/-- A natural number of so many bits. -/
def natural (bits : Nat) (name : String) : Decoder Nat :=
  Int.toNat <$> integer 0 (twoTo bits - 1) name

def natural32 : Decoder Nat := natural 32 "u32"

def natural64 : Decoder Nat := natural 64 "u64"

/-- A number of things. -/
def count : Decoder Nat := natural 64 "usize"

def integer32 : Decoder Int := integer (-twoTo 31) (twoTo 31 - 1) "i32"

def boolean : Decoder Bool := ofKind fun
  | .atom (.bool b) => .ok b
  | kind => .error (kind.mistyped "a boolean")

/-- A string that is read further. -/
def string {α : Type} (expected : String) (read : String → Except Cause α) : Decoder α :=
  ofKind fun
  | .atom (.string s) => read s
  | kind => .error (kind.mistyped expected)

def text : Decoder String := string "a string" .ok

def path : Decoder String := string "path string" .ok

def unit : Decoder Unit := ofKind fun
  | .atom .null => .ok ()
  | kind => .error (kind.mistyped "unit")

/-- Null stands for an absent value. -/
def option {α : Type} (d : Decoder α) : Decoder (Option α) where
  scan depth c :=
    match c.skip.rest with
    | 'n' :: _ => (unit.scan depth c).map fun (_, c) => (none, c)
    | _ => (d.scan depth c).map fun (a, c) => (some a, c)
  convert
    | .null => .ok none
    | v => (d.convert v).map some

def list {α : Type} (d : Decoder α) : Decoder (List α) where
  scan depth c :=
    let c := c.skip
    match c.rest with
    | '[' :: _ => Container.list.within (fun depth => Cursor.items (d.scan depth)) depth c
    | _ => c.mistyped "a sequence"
  convert
    | .array vs => vs.mapM d.convert
    | v => v.mistyped "a sequence"

/-- The members of an object in the order they stand. -/
def entries {κ α : Type} (key : String → Except Fault κ) (d : Decoder α) :
    Decoder (List (κ × α)) where
  scan depth c :=
    let keyAt (k : String) (c : Cursor) : Scan κ :=
      (key k).mapError fun f => .placed f.cause (f.place.getD c.position)
    let c := c.skip
    match c.rest with
    | '{' :: _ => Container.object.within (fun n => Cursor.members keyAt (d.scan n)) depth c
    | _ => c.mistyped "a map"
  convert
    | .object ms => ms.mapM fun (k, v) => do return (← key k, ← d.convert v)
    | v => v.mistyped "a map"

/-- An object as a list sorted by key; of members with one key the last counts. -/
def dictionary {α : Type} (d : Decoder α) : Decoder (List (String × α)) :=
  sortedMembers <$> entries .ok d

/-- Any value. -/
def value : Decoder Value := ⟨Cursor.value, .ok⟩

/-- Reads any value and then judges it. Where it stands no longer counts. -/
def judged {α : Type} (judge : Value → Except Cause α) : Decoder α where
  scan depth c := do
    let (v, c) ← c.value depth
    match judge v with
    | .ok a => return (a, c)
    | .error cause => throw (.pending cause c)
  convert v := (judge v).mapError (⟨·, none⟩)

/-- One of several names. -/
def named {α : Type} (variants : List (String × α)) (name : String) : Except Cause α :=
  match variants.lookup name with
  | some a => .ok a
  | none => .error (.unknownVariant name (variants.map Prod.fst))

/-- The key of an object that stands for one of several names. -/
def variantKey {α : Type} (variants : List (String × α)) (c : Cursor) : Scan (α × Cursor) := do
  let c := c.skip
  match c.rest with
  | [] => throw (c.fault .endInValue)
  | '"' :: _ => (string "variant identifier" (named variants)).scan 0 c
  | '}' :: _ => throw (c.peekFault .expectedValue)
  | _ => throw (c.peekFault .keyMustBeString)

/-- An object with one of several names as its only key, and null. -/
def variantObject {α : Type} (variants : List (String × α)) (c : Cursor) : Scan (α × Cursor) := do
  let (a, c) ← variantKey variants c.next
  let (_, c) ← unit.scan 0 (← c.colon)
  let c := c.skip
  match c.rest with
  | [] => throw (c.fault .endInObject)
  | '}' :: _ => return (a, c.next)
  | _ => throw (c.fault .expectedValue)

/-- One of several names, as a string or as the only key of an object with a null. -/
def variant {α : Type} (variants : List (String × α)) : Decoder α where
  scan depth c :=
    let c := c.skip
    match c.rest, depth with
    | [], _ => .error (c.fault .endInValue)
    | '"' :: _, _ => (string "variant identifier" (named variants)).scan 0 c
    | '{' :: _, 0 => .error (c.peekFault .tooDeep)
    | '{' :: _, _ + 1 => variantObject variants c
    | _, _ => .error (c.peekFault .expectedValue)
  convert
    | .string s => (named variants s).mapError (⟨·, none⟩)
    | .object [(name, v)] => do
      let a ← (named variants name).mapError (⟨·, none⟩)
      let () ← unit.convert v
      return a
    | .object _ => .error ⟨.invalidValue "map" "map with a single key", none⟩
    | v => v.mistyped "string or map"

end Decoder

/-- How many containers may nest in a text. -/
def depthLimit : Nat := 127

/-- Reads a whole text. -/
def decodeText {α : Type} (d : Decoder α) (s : String) : Except Fault α :=
  match d.scan depthLimit (.ofText s) with
  | .error stop => .error stop.fault
  | .ok (a, c) =>
    let c := c.skip
    if c.rest.isEmpty then .ok a else .error (c.peekFault .trailingCharacters).fault

end Docket.Json
