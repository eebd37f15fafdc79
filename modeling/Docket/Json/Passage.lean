import Docket.Json.Container

/-! Passing over a value that nobody reads. Only its form is checked: numbers may be of any
size, escapes may write half a pair, and containers may nest without limit. -/
namespace Docket.Json.Cursor

/-- Past the rest of a string after its opening quote. -/
def passString : List Char → Cursor → Scan Cursor
  | [], c => .error (c.fault .endInString)
  | _ :: bound, c =>
    match c.rest with
    | [] => .error (c.fault .endInString)
    | '"' :: _ => .ok c.next
    | '\\' :: rest =>
      match rest with
      | [] => .error (c.next.fault .endInString)
      | 'u' :: _ => do
        let (_, c) ← c.next.next.hexEscape
        passString bound c
      | ch :: _ =>
        if (shortEscape? ch).isSome then passString bound c.next.next
        else .error (c.next.peekFault .invalidEscape)
    | ch :: _ =>
      if ch.toNat < 32 then .error (c.fault .controlCharacter) else passString bound c.next

/-- Past digits, of which there must be one. -/
def passDigits (c : Cursor) : Scan Cursor :=
  if c.digits.isEmpty then .error (c.peekFault .invalidNumber) else .ok c.pastDigits

/-- Past an exponent behind its mark. -/
def passExponent (c : Cursor) : Scan Cursor :=
  match c.rest with
  | '+' :: _ | '-' :: _ => c.next.passDigits
  | _ => c.passDigits

/-- Past a number whose sign has been taken. -/
def passNumber (c : Cursor) : Scan Cursor :=
  match c.digits with
  | '0' :: _ :: _ => .error (c.next.peekFault .invalidNumber)
  | _ => do
    let c ← c.passDigits
    match c.rest with
    | '.' :: _ =>
      let c ← c.next.passDigits
      match c.rest with
      | 'e' :: _ | 'E' :: _ => c.next.passExponent
      | _ => return c
    | 'e' :: _ | 'E' :: _ => c.next.passExponent
    | _ => return c

/-- Past a key and its colon. -/
def passKey (c : Cursor) : Scan Cursor :=
  let c := c.skip
  match c.rest with
  | [] => .error (c.fault .endInObject)
  | '"' :: _ => do (← passString c.next.rest c.next).colon
  | _ => .error (c.peekFault .keyMustBeString)

/-- Goes on to the next value inside the open containers, innermost first, and closes those that
end before it. A container that was opened just now has no comma yet. -/
def passEnds : Bool → List Container → Cursor → Scan (List Container × Cursor)
  | _, [], c => .ok ([], c)
  | opened, k :: outer, c =>
    let c := c.skip
    let onward (c : Cursor) : Scan (List Container × Cursor) :=
      match k with
      | .list => .ok (k :: outer, c)
      | .object => c.passKey.map (k :: outer, ·)
    match c.rest with
    | [] => .error (c.fault k.unclosed)
    | ch :: _ =>
      if ch = k.closing then passEnds false outer c.next
      else if opened then onward c
      else if ch = ',' then onward c.next
      else .error (c.peekFault k.expectedEnd)

/-- Past values until the open containers are closed. The list of characters bounds what is left of
the text. -/
def passValues : List Char → List Container → Cursor → Scan Cursor
  | [], _, c => .error (c.fault .endInValue)
  | _ :: bound, outer, c => do
    let c := c.skip
    let (opened, c) ← match c.rest with
      | [] => throw (c.fault .endInValue)
      | 'n' :: _ => (c.next.word ['u', 'l', 'l']).map ([], ·)
      | 't' :: _ => (c.next.word ['r', 'u', 'e']).map ([], ·)
      | 'f' :: _ => (c.next.word ['a', 'l', 's', 'e']).map ([], ·)
      | '"' :: _ => (passString c.next.rest c.next).map ([], ·)
      | '-' :: _ => c.next.passNumber.map ([], ·)
      | '[' :: _ => pure ([Container.list], c.next)
      | '{' :: _ => pure ([Container.object], c.next)
      | ch :: _ =>
        if Reading.isDigit ch then c.passNumber.map ([], ·)
        else throw (c.peekFault .expectedValue)
    let (stillOpen, c) ← passEnds (!opened.isEmpty) (opened ++ outer) c
    if stillOpen.isEmpty then return c else passValues bound stillOpen c

/-- Past one value. -/
def pass (c : Cursor) : Scan Cursor := passValues c.rest [] c

end Docket.Json.Cursor
