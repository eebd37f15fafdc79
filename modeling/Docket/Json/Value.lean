import Docket.Number.Shortest

/-! Values of records: the data, its order of keys, and its two written forms. -/
namespace Docket.Json

/-- A number as records hold it: an integer of 64 bits, signed or not, or a double. -/
inductive Number
  | whole (n : Int)
  | real (x : Float)

namespace Number

def toFloat : Number → Float
  | whole n => Float.ofInt n
  | real x => x

def write : Number → String
  | whole n => toString n
  | real x => FloatFormat.record.write x

end Number

inductive Value
  | null
  | bool (b : Bool)
  | number (n : Number)
  | string (s : String)
  | array (items : List Value)
  | object (members : List (String × Value))

instance : Inhabited Value := ⟨.null⟩

/-- Puts a member at the place of its key in a list sorted by key; a later one replaces an earlier
one. -/
def insertSorted {β : Type} (key : String) (value : β) : List (String × β) → List (String × β)
  | [] => [(key, value)]
  | (k, v) :: rest =>
    if key < k then (key, value) :: (k, v) :: rest
    else if key = k then (key, value) :: rest
    else (k, v) :: insertSorted key value rest

/-- Members sorted by key, the last of equal keys. -/
def sortedMembers {β : Type} (members : List (String × β)) : List (String × β) :=
  members.foldl (fun acc (k, v) => insertSorted k v acc) []

namespace Value

/-- A double; one that is not finite has no number and is null. -/
def real (x : Float) : Value := if x.isFinite then .number (.real x) else .null

def natural (n : Nat) : Value := .number (.whole n)

def texts (xs : List String) : Value := .array (xs.map .string)

def optional {β : Type} (f : β → Value) : Option β → Value
  | some b => f b
  | none => .null

/-- The value of an object's member by its key. -/
def member? (v : Value) (key : String) : Option Value :=
  match v with
  | object members => members.lookup key
  | _ => none

end Value

def hex4 (n : Nat) : List Char :=
  let ds := Nat.toDigits 16 n
  List.replicate (4 - ds.length) '0' ++ ds

/-- A character inside quotes: quotes, backslashes and controls are escaped. -/
def escape (c : Char) : List Char :=
  if c == '"' || c == '\\' then ['\\', c]
  else if c == '\n' then ['\\', 'n']
  else if c == '\r' then ['\\', 'r']
  else if c == '\t' then ['\\', 't']
  else if c == '\x08' then ['\\', 'b']
  else if c == '\x0c' then ['\\', 'f']
  else if c.toNat < 32 then ['\\', 'u'] ++ hex4 c.toNat
  else [c]

def quote (s : String) : String :=
  String.ofList ('"' :: s.toList.flatMap escape ++ ['"'])

/-- Every character beyond ASCII by its UTF-16 units as well. -/
def asciiEscape (c : Char) : List Char :=
  let n := c.toNat
  if n < 127 then escape c
  else if n < 0x10000 then ['\\', 'u'] ++ hex4 n
  else
    let m := n - 0x10000
    ['\\', 'u'] ++ hex4 (0xD800 + m / 0x400) ++ ['\\', 'u'] ++ hex4 (0xDC00 + m % 0x400)

def asciiQuote (s : String) : String :=
  String.ofList ('"' :: s.toList.flatMap asciiEscape ++ ['"'])

mutual
/-- The form without spaces; `q` writes the strings. -/
def compactWith (q : String → String) : Value → String
  | .null => "null"
  | .bool b => if b then "true" else "false"
  | .number n => n.write
  | .string s => q s
  | .array items => "[" ++ ",".intercalate (compactItems q items) ++ "]"
  | .object members => "\x7b" ++ ",".intercalate (compactMembers q members) ++ "\x7d"

def compactItems (q : String → String) : List Value → List String
  | [] => []
  | v :: vs => compactWith q v :: compactItems q vs

def compactMembers (q : String → String) : List (String × Value) → List String
  | [] => []
  | (k, v) :: ms => (q k ++ ":" ++ compactWith q v) :: compactMembers q ms
end

def compact (v : Value) : String := compactWith quote v

/-- One item a line, two spaces a level; empty containers stay closed. -/
def block (indent : String) (left right : String) (lines : List String) : String :=
  if lines.isEmpty then left ++ right
  else left ++ "\n" ++ ",\n".intercalate (lines.map fun l => indent ++ "  " ++ l) ++ "\n" ++
    indent ++ right

mutual
def prettyAt (indent : String) : Value → String
  | .null => "null"
  | .bool b => if b then "true" else "false"
  | .number n => n.write
  | .string s => quote s
  | .array items => block indent "[" "]" (prettyItems (indent ++ "  ") items)
  | .object members => block indent "\x7b" "\x7d" (prettyMembers (indent ++ "  ") members)

def prettyItems (indent : String) : List Value → List String
  | [] => []
  | v :: vs => prettyAt indent v :: prettyItems indent vs

def prettyMembers (indent : String) : List (String × Value) → List String
  | [] => []
  | (k, v) :: ms => (quote k ++ ": " ++ prettyAt indent v) :: prettyMembers indent ms
end

/-- The form with one member a line. -/
def pretty (v : Value) : String := prettyAt "" v

end Docket.Json
