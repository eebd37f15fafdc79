import Docket.Json.Atom

/-! Lists and objects in a text: how they open, go on and close, and what happens to a fault
that is met inside them. -/
namespace Docket.Json

inductive Container
  | list
  | object
deriving DecidableEq

namespace Container

def closing : Container → Char
  | list => ']'
  | object => '}'

/-- The text ends inside. -/
def unclosed : Container → Grammar
  | list => .endInList
  | object => .endInObject

/-- Something else than a comma or the closing bracket follows an item. -/
def expectedEnd : Container → Grammar
  | list => .expectedListCommaOrEnd
  | object => .expectedObjectCommaOrEnd

/-- Takes the closing bracket when all that was wanted has been read. -/
def close (k : Container) (c : Cursor) : Scan Cursor :=
  let c := c.skip
  match c.rest with
  | [] => .error (c.fault k.unclosed)
  | ch :: _ =>
    if ch = k.closing then .ok c.next
    else if ch ≠ ',' then .error (c.peekFault .trailingCharacters)
    else
      match k, c.next.skip.rest with
      | object, _ => .error (c.peekFault .trailingComma)
      | list, ']' :: _ => .error (c.next.skip.peekFault .trailingComma)
      | list, _ => .error (c.next.skip.peekFault .trailingCharacters)

/-- Where reading stands once the container is given up: its closing bracket is taken if it is
next, and in a list a comma. -/
def leave (k : Container) (c : Cursor) : Position :=
  let c := c.skip
  match k, c.rest with
  | list, ']' :: _ => c.next.position
  | list, ',' :: _ => c.next.skip.position
  | object, '}' :: _ => c.next.position
  | _, _ => c.position

/-- Takes the opening bracket, reads inside and closes. -/
def enclose {α : Type} (k : Container) (inner : Cursor → Scan (α × Cursor)) (c : Cursor) :
    Scan (α × Cursor) :=
  match inner c.next with
  | .ok (a, c) => (k.close c).map (a, ·)
  | .error (.pending cause c) => .error (.placed cause (k.leave c))
  | .error stop => .error stop

/-- A container at a level where so many more may be opened. -/
def within {α : Type} (k : Container) (inner : Nat → Cursor → Scan (α × Cursor)) :
    Nat → Cursor → Scan (α × Cursor)
  | 0, c => .error (c.peekFault .tooDeep)
  | depth + 1, c => k.enclose (inner depth) c

end Container

namespace Cursor

/-- The start of the next item, or none at the end of the list. -/
def nextItem (first : Bool) (c : Cursor) : Scan (Option Cursor) :=
  let c := c.skip
  match c.rest with
  | [] => .error (c.fault .endInList)
  | ']' :: _ => .ok none
  | ch :: _ =>
    if first then .ok (some c)
    else if ch ≠ ',' then .error (c.peekFault .expectedListCommaOrEnd)
    else
      let c := c.next.skip
      match c.rest with
      | [] => .error (c.fault .endInValue)
      | ']' :: _ => .error (c.peekFault .trailingComma)
      | _ => .ok (some c)

/-- The next key with the text behind it, or none at the end of the object. -/
def nextKey (first : Bool) (c : Cursor) : Scan (Option (String × Cursor)) :=
  let c := c.skip
  match c.rest with
  | [] => .error (c.fault .endInObject)
  | '}' :: _ => .ok none
  | ch :: _ =>
    if first then if ch = '"' then c.next.string.map some else .error (c.peekFault .keyMustBeString)
    else if ch ≠ ',' then .error (c.peekFault .expectedObjectCommaOrEnd)
    else
      let c := c.next.skip
      match c.rest with
      | [] => .error (c.fault .endInValue)
      | '"' :: _ => c.next.string.map some
      | '}' :: _ => .error (c.peekFault .trailingComma)
      | _ => .error (c.peekFault .keyMustBeString)

/-- The colon behind a key. -/
def colon (c : Cursor) : Scan Cursor :=
  let c := c.skip
  match c.rest with
  | [] => .error (c.fault .endInObject)
  | ':' :: _ => .ok c.next
  | _ => .error (c.peekFault .expectedColon)

/-- Takes the items of a list one by one into a state. The list of characters bounds what is left
of the text. -/
def foldItems {σ : Type} (step : σ → Cursor → Scan (σ × Cursor)) :
    List Char → Bool → σ → Cursor → Scan (σ × Cursor)
  | [], _, _, c => .error (c.fault .endInList)
  | _ :: bound, first, s, c => do
    match ← c.nextItem first with
    | none => return (s, c)
    | some c =>
      let (s, c) ← step s c
      foldItems step bound false s c

/-- Takes the members of an object one by one into a state; a step starts behind the key. -/
def foldMembers {σ : Type} (step : σ → String → Cursor → Scan (σ × Cursor)) :
    List Char → Bool → σ → Cursor → Scan (σ × Cursor)
  | [], _, _, c => .error (c.fault .endInObject)
  | _ :: bound, first, s, c => do
    match ← c.nextKey first with
    | none => return (s, c)
    | some (key, c) =>
      let (s, c) ← step s key c
      foldMembers step bound false s c

/-- The items of a list behind its bracket. -/
def items {α : Type} (item : Cursor → Scan (α × Cursor)) (c : Cursor) : Scan (List α × Cursor) := do
  let step (as : List α) (c : Cursor) : Scan (List α × Cursor) :=
    (item c).map fun (a, c) => (a :: as, c)
  let (as, c) ← foldItems step c.rest true [] c
  return (as.reverse, c)

/-- The members of an object behind its bracket, in the order they stand. -/
def members {κ α : Type} (key : String → Cursor → Scan κ) (value : Cursor → Scan (α × Cursor))
    (c : Cursor) : Scan (List (κ × α) × Cursor) := do
  let step (as : List (κ × α)) (name : String) (c : Cursor) : Scan (List (κ × α) × Cursor) := do
    let k ← key name c
    let (a, c) ← value (← c.colon)
    return ((k, a) :: as, c)
  let (as, c) ← foldMembers step c.rest true [] c
  return (as.reverse, c)

/-- Any value, in which so many containers may nest. -/
def value : Nat → Cursor → Scan (Value × Cursor)
  | 0, c => do
    let (kind, c) ← c.kind
    match kind with
    | .atom a => return (a.toValue, c)
    | _ => throw (c.peekFault .tooDeep)
  | depth + 1, c => do
    let (kind, c) ← c.kind
    match kind with
    | .atom a => return (a.toValue, c)
    | .list =>
      let (vs, c) ← Container.list.enclose (items (value depth)) c
      return (.array vs, c)
    | .object =>
      let (ms, c) ← Container.object.enclose (members (fun k _ => .ok k) (value depth)) c
      return (.object (sortedMembers ms), c)

end Cursor
end Docket.Json
