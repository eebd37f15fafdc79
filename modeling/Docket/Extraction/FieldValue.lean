import Docket.Extraction.DateText
import Docket.Extraction.Numeral
import Docket.Json.Decoder

/-! Values of fields by the declared type of the field. -/
namespace Docket

/-- The declared type of a field. -/
inductive FieldType
  | text | number | currency | percentage | integer | date
deriving DecidableEq

namespace FieldType

def names : List (String × FieldType) :=
  [("text", text), ("number", number), ("currency", currency), ("percentage", percentage),
    ("integer", integer), ("date", date)]

def name : FieldType → String
  | text => "text"
  | number => "number"
  | currency => "currency"
  | percentage => "percentage"
  | integer => "integer"
  | date => "date"

def isNumeric : FieldType → Bool
  | text | date => false
  | _ => true

end FieldType

inductive FieldValue
  | number (x : Float)
  | date (d : Date)
  | text (s : String)

namespace FieldValue

def asNumber? : FieldValue → Option Float
  | number x => some x
  | _ => none

def toJson : FieldValue → Json.Value
  | number x => .real x
  | date d => .string d.display
  | text s => .string s

/-- A number is a number, a string that writes a date is a date, another string is text. -/
def decoder : Json.Decoder FieldValue := .judged fun
  | .number n => .ok (number n.toFloat)
  | .string s =>
    match Date.read? s with
    | some d => .ok (date d)
    | none => .ok (text s)
  | _ => .error (.noVariant "FieldValue")

/-- The value a text has for a field of the given type. -/
def ofText? (s : String) (type : FieldType) : Option FieldValue :=
  let trimmed := Text.trim s
  if trimmed.isEmpty then none
  else
    match type with
    | .text => some (text trimmed)
    | .date => (DateText.first? trimmed).map date
    | .integer => (Numeral.firstValue? trimmed).map fun x => number (Rounding.round x)
    | .number | .currency | .percentage => (Numeral.firstValue? trimmed).map number

end FieldValue
end Docket
