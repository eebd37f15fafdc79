import Docket.Json.Value

/-! What can be wrong with a record: breaks of the grammar of its text and values that are
not of the wanted type, with the place in the text where that was met. -/
namespace Docket.Json

/-- A line from 1 and the number of bytes passed on it. -/
structure Position where
  line : Nat
  column : Nat
deriving DecidableEq

/-- A place in a text; values in memory have none. -/
abbrev Place := Option Position

/-- What breaks the grammar of a text. -/
inductive Grammar
  | endInValue | endInList | endInObject | endInString
  | expectedColon | expectedListCommaOrEnd | expectedObjectCommaOrEnd | expectedIdent
  | expectedValue | invalidEscape | invalidNumber | numberOutOfRange | controlCharacter
  | keyMustBeString | loneSurrogate | trailingComma | trailingCharacters | endInHexEscape
  | tooDeep
deriving DecidableEq

def Grammar.message : Grammar → String
  | endInValue => "EOF while parsing a value"
  | endInList => "EOF while parsing a list"
  | endInObject => "EOF while parsing an object"
  | endInString => "EOF while parsing a string"
  | expectedColon => "expected `:`"
  | expectedListCommaOrEnd => "expected `,` or `]`"
  | expectedObjectCommaOrEnd => "expected `,` or `\x7d`"
  | expectedIdent => "expected ident"
  | expectedValue => "expected value"
  | invalidEscape => "invalid escape"
  | invalidNumber => "invalid number"
  | numberOutOfRange => "number out of range"
  | controlCharacter => "control character (\\u0000-\\u001F) found while parsing a string"
  | keyMustBeString => "key must be a string"
  | loneSurrogate => "lone leading surrogate in hex escape"
  | trailingComma => "trailing comma"
  | trailingCharacters => "trailing characters"
  | endInHexEscape => "unexpected end of hex escape"
  | tooDeep => "recursion limit exceeded"

inductive Cause
  | invalidType (found expected : String)
  | invalidValue (found expected : String)
  | invalidLength (count : Nat) (expected : String)
  | missingField (name : String)
  | duplicateField (name : String)
  | unknownVariant (name : String) (expected : List String)
  | noVariant (type : String)
  | grammar (g : Grammar)
  | refused (text : String)
deriving DecidableEq

def backquoted (s : String) : String := "`" ++ s ++ "`"

/-- The choices a variant had. -/
def choices : List String → String
  | [] => "there are no variants"
  | [a] => "expected " ++ backquoted a
  | [a, b] => "expected " ++ backquoted a ++ " or " ++ backquoted b
  | vs => "expected one of " ++ ", ".intercalate (vs.map backquoted)

def Cause.message : Cause → String
  | invalidType found expected => s!"invalid type: {found}, expected {expected}"
  | invalidValue found expected => s!"invalid value: {found}, expected {expected}"
  | invalidLength n expected => s!"invalid length {n}, expected {expected}"
  | missingField name => s!"missing field `{name}`"
  | duplicateField name => s!"duplicate field `{name}`"
  | unknownVariant name vs => s!"unknown variant `{name}`, " ++ choices vs
  | noVariant type => s!"data did not match any variant of untagged enum {type}"
  | grammar g => g.message
  | refused text => text

structure Fault where
  cause : Cause
  place : Place
deriving DecidableEq

def Fault.message (f : Fault) : String :=
  match f.place with
  | none => f.cause.message
  | some p => s!"{f.cause.message} at line {p.line} column {p.column}"

end Docket.Json
