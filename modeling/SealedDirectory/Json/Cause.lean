import SealedDirectory.Json.Printer
import SealedDirectory.Text.Visible

/-!
# Why a document is refused

A text may fail to be a document, or a document may fail to have the shape that a
type asks for.  The first kind of cause speaks of characters, the second of fields
and values.  Both are met while reading from left to right, and the first one met
is reported, with the line and the column where it was met.
-/

namespace SealedDirectory.Json

/-- What a value turned out to be where something else was expected. -/
inductive Found where
  | null
  | bool (value : Bool)
  | number (value : Number)
  | text (value : String)
  | list
  | object
  deriving DecidableEq, Repr

def Found.words : Found → String
  | .null => "null"
  | .bool true => "boolean `true`"
  | .bool false => "boolean `false`"
  | .number (.integer value) =>
      "integer `" ++ String.ofList (integerChars value) ++ "`"
  | .number (.float bits) => "floating point `" ++ doubleStyle.write bits ++ "`"
  | .text value => "string " ++ Text.visible value
  | .list => "sequence"
  | .object => "map"

/-- What a document is, seen from outside. -/
def found : Json → Found
  | .null => .null
  | .bool value => .bool value
  | .number value => .number value
  | .text value => .text value
  | .list _ => .list
  | .object _ => .object

/-- Why a text or a document is refused. -/
inductive Cause where
  /-- The text ends where a value must begin or go on. -/
  | endOfValue
  | endOfText
  | endOfList
  | endOfObject
  | noColon
  /-- Neither a comma nor the end follows an item. -/
  | noListComma
  /-- Neither a comma nor the end follows a field. -/
  | noObjectComma
  | noWord
  | noValue
  /-- A backslash is followed by something it does not escape. -/
  | badEscape
  | badNumber
  | numberTooLarge
  /-- A control character stands unescaped in a text. -/
  | controlCharacter
  | nameNotText
  /-- One half of a character pair is escaped without the other. -/
  | loneSurrogate
  /-- The escape of the second half of a character pair is missing. -/
  | noSecondSurrogate
  /-- A comma is followed by the end of a list or an object. -/
  | trailingComma
  | trailingCharacters
  | tooDeep
  | wrongKind (found : Found) (expected : String)
  /-- A value of the right kind that its type does not have. -/
  | wrongValue (found : Found) (expected : String)
  | missingField (name : String)
  | repeatedField (name : String)
  /-- A word is none of the expected ones. -/
  | unknownWord (word : String) (expected : String)
  /-- A list has too few or too many items. -/
  | wrongLength (length : Nat) (expected : String)
  /-- A value breaks a rule of its type, in the words of that rule. -/
  | refused (message : String)
  deriving DecidableEq, Repr

def Cause.message : Cause → String
  | .endOfValue => "EOF while parsing a value"
  | .endOfText => "EOF while parsing a string"
  | .endOfList => "EOF while parsing a list"
  | .endOfObject => "EOF while parsing an object"
  | .noColon => "expected `:`"
  | .noListComma => "expected `,` or `]`"
  | .noObjectComma => "expected `,` or `\x7d`"
  | .noWord => "expected ident"
  | .noValue => "expected value"
  | .badEscape => "invalid escape"
  | .badNumber => "invalid number"
  | .numberTooLarge => "number out of range"
  | .controlCharacter =>
      "control character (\\u0000-\\u001F) found while parsing a string"
  | .nameNotText => "key must be a string"
  | .loneSurrogate => "lone leading surrogate in hex escape"
  | .noSecondSurrogate => "unexpected end of hex escape"
  | .trailingComma => "trailing comma"
  | .trailingCharacters => "trailing characters"
  | .tooDeep => "recursion limit exceeded"
  | .wrongKind found expected =>
      "invalid type: " ++ found.words ++ ", expected " ++ expected
  | .wrongValue found expected =>
      "invalid value: " ++ found.words ++ ", expected " ++ expected
  | .missingField name => "missing field `" ++ name ++ "`"
  | .repeatedField name => "duplicate field `" ++ name ++ "`"
  | .unknownWord word expected =>
      "unknown variant `" ++ word ++ "`, expected " ++ expected
  | .wrongLength length expected =>
      "invalid length " ++ toString length ++ ", expected " ++ expected
  | .refused message => message

/-- A place in a text: its line from one on, and the bytes before it on that line. -/
structure Place where
  line : Nat
  column : Nat
  deriving DecidableEq, Repr

def Place.advance (place : Place) (byte : UInt8) : Place :=
  if byte = 10 then ⟨place.line + 1, 0⟩ else ⟨place.line, place.column + 1⟩

/-- The place after the first bytes of a text. -/
def Place.after (text : Bytes) (count : Nat) : Place :=
  (text.take count).foldl Place.advance ⟨1, 0⟩

/-- A cause together with the place where it was met, if it was met at one. -/
structure Refusal where
  cause : Cause
  place : Option Place
  deriving DecidableEq, Repr

def Refusal.message (refusal : Refusal) : String :=
  match refusal.place with
  | none => refusal.cause.message
  | some place =>
      s!"{refusal.cause.message} at line {place.line} column {place.column}"

end SealedDirectory.Json
