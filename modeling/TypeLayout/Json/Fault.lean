import TypeLayout.Json.Decimal
import TypeLayout.Text.Quoted
/-! Why a text is refused and where. A text may be malformed, may end early, or may be well formed
and not have the expected shape. -/

namespace TypeLayout.Json

inductive Ending
  | inList | inObject | inString | inValue
deriving DecidableEq, Repr

inductive Malformation
  | expectedColon
  | expectedListEnd
  | expectedObjectEnd
  | expectedIdentifier
  | expectedValue
  | invalidEscape
  | invalidNumber
  | numberOutOfRange
  | controlCharacter
  | keyNotString
  | loneSurrogate
  | unfinishedSurrogate
  | trailingComma
  | trailingCharacters
  | tooDeep
deriving DecidableEq, Repr

inductive Mismatch
  | invalidType (found expected : String)
  | invalidValue (found expected : String)
  | invalidLength (length : Nat) (expected : String)
  | unknownVariant (name : String) (expected : List String)
  | missingField (name : String)
  | duplicateField (name : String)
deriving DecidableEq, Repr

inductive Cause
  | endsEarly (ending : Ending)
  | malformed (reason : Malformation)
  | mismatch (reason : Mismatch)
deriving DecidableEq, Repr

def Ending.message : Ending → String
  | inList => "EOF while parsing a list"
  | inObject => "EOF while parsing an object"
  | inString => "EOF while parsing a string"
  | inValue => "EOF while parsing a value"

def Malformation.message : Malformation → String
  | expectedColon => "expected \x60:\x60"
  | expectedListEnd => "expected \x60,\x60 or \x60]\x60"
  | expectedObjectEnd => "expected \x60,\x60 or \x60\x7d\x60"
  | expectedIdentifier => "expected ident"
  | expectedValue => "expected value"
  | invalidEscape => "invalid escape"
  | invalidNumber => "invalid number"
  | numberOutOfRange => "number out of range"
  | controlCharacter => "control character (\\u0000-\\u001F) found while parsing a string"
  | keyNotString => "key must be a string"
  | loneSurrogate => "lone leading surrogate in hex escape"
  | unfinishedSurrogate => "unexpected end of hex escape"
  | trailingComma => "trailing comma"
  | trailingCharacters => "trailing characters"
  | tooDeep => "recursion limit exceeded"

def ticks (s : String) : String := "\x60" ++ s ++ "\x60"

def oneOf : List String → String
  | [] => "there are no variants"
  | [a] => "expected " ++ ticks a
  | [a, b] => "expected " ++ ticks a ++ " or " ++ ticks b
  | names => "expected one of " ++ String.intercalate ", " (names.map ticks)

def Mismatch.message : Mismatch → String
  | invalidType found expected => "invalid type: " ++ found ++ ", expected " ++ expected
  | invalidValue found expected => "invalid value: " ++ found ++ ", expected " ++ expected
  | invalidLength length expected =>
    "invalid length " ++ toString length ++ ", expected " ++ expected
  | unknownVariant name expected => "unknown variant " ++ ticks name ++ ", " ++ oneOf expected
  | missingField name => "missing field " ++ ticks name
  | duplicateField name => "duplicate field " ++ ticks name

def Cause.message : Cause → String
  | endsEarly ending => ending.message
  | malformed reason => reason.message
  | mismatch reason => reason.message

def label : Json → String
  | .null => "null"
  | .bool b => "boolean " ++ ticks (toString b)
  | .natural n => "integer " ++ ticks (toString n)
  | .negative n => "integer " ++ ticks ("-" ++ toString n)
  | .real d => "floating point " ++ ticks d.text
  | .string s => "string " ++ Text.quoted s
  | .array _ => "sequence"
  | .object _ => "map"

/-- A cause and the place it was found: what is left of the text there, and how many bytes of that
the fault reaches into. A mismatch has no place until the array or object around it is closed. -/
structure Fault where
  cause : Cause
  rest : List Char
  reach : Nat := 0
  unplaced : Bool := false

namespace Fault

def place (f : Fault) (advance : List Char → List Char) : Fault :=
  if f.unplaced then { f with rest := advance f.rest, unplaced := false } else f

def advance (at_ : Nat × Nat) (c : Char) : Nat × Nat :=
  if c = '\n' then (at_.1 + 1, 0) else (at_.1, at_.2 + c.utf8Size)

/-- Line and column after the next `n` bytes, which may end inside a character. -/
def advanceBytes : Nat → List Char → Nat × Nat → Nat × Nat
  | _, [], at_ => at_
  | n, c :: cs, at_ =>
    if c.utf8Size ≤ n then advanceBytes (n - c.utf8Size) cs (advance at_ c)
    else (at_.1, at_.2 + n)

def position (f : Fault) (text : List Char) : Nat × Nat :=
  advanceBytes f.reach f.rest ((text.take (text.length - f.rest.length)).foldl advance (1, 0))

def message (f : Fault) (text : List Char) : String :=
  let (line, column) := f.position text
  f.cause.message ++ s!" at line {line} column {column}"

end Fault

end TypeLayout.Json
