import SealedDirectory.Bytes.Base64

/-!
# Encoded passwords

An encoded password is a text of fields that each begin with `$`: the name of the
algorithm, its version, its parameters, the salt and the tag.  Every field after the
name may be missing.  A field that begins with `v=` is a version, one that contains
`=` is a list of parameters, and the next ones are the salt and the tag.
-/

namespace SealedDirectory.Password

inductive ValueFault where
  | malformed
  /-- Its digits are not written as a number is. -/
  | format
  | tooShort
  | tooLong
  | foreignChar (char : Char)
  deriving DecidableEq, Repr

/-- The wording of a fault of a value. -/
def ValueFault.message : ValueFault → String
  | .malformed => "value malformed"
  | .format => "value format is invalid"
  | .tooShort => "value to short"
  | .tooLong => "value to long"
  | .foreignChar char => "contains invalid character: '" ++ String.ofList [char] ++ "'"

/-- Why a text is not an encoded password. -/
inductive EncodingFault where
  | missingField
  /-- The name of the algorithm or of a parameter is none. -/
  | badName
  /-- The version or a parameter has no proper value. -/
  | badValue (fault : ValueFault)
  | tooManyParameters
  | badSalt (fault : ValueFault)
  | badBase64
  | longTag
  | shortTag
  | trailingField
  deriving DecidableEq, Repr

def leastTag : Nat := 10

def greatestTag : Nat := 64

/-- The wording of a fault of an encoding. -/
def EncodingFault.message : EncodingFault → String
  | .missingField => "password hash string missing field"
  | .badName => "invalid parameter name"
  | .badValue fault => "invalid parameter value: " ++ fault.message
  | .tooManyParameters => "maximum number of parameters reached"
  | .badSalt fault => "salt invalid: " ++ fault.message
  | .badBase64 => "invalid Base64 encoding"
  | .longTag => "invalid Base64 length"
  | .shortTag => s!"output size too short, expected at least {leastTag} bytes"
  | .trailingField => "password hash string contains trailing characters"

structure Encoded where
  algorithm : List Char
  version : Option Nat
  parameters : List (List Char × List Char)
  salt : Option (List Char)
  tag : Option Bytes
  deriving DecidableEq, Repr

namespace Encoded

/-- Whether a character may stand in a name. -/
def isNameChar (char : Char) : Bool :=
  ('a' ≤ char && char ≤ 'z') || char.isDigit || char == '-'

/-- Whether a character may stand in a value. -/
def isValueChar (char : Char) : Bool :=
  char.isAlphanum || char == '/' || char == '+' || char == '.' || char == '-'

def size (chars : List Char) : Nat :=
  chars.foldl (fun total char => total + char.utf8Size) 0

def readName (chars : List Char) : Except EncodingFault (List Char) :=
  if chars.isEmpty || 32 < size chars || !chars.all isNameChar then .error .badName
  else .ok chars

def readValue (chars : List Char) : Except ValueFault (List Char) :=
  if 64 < size chars then .error .tooLong
  else
    match chars.find? (fun char => !isValueChar char) with
    | some char => .error (.foreignChar char)
    | none => .ok chars

/-- The number that decimal digits write down, below 2^32 and without a leading zero. -/
def readDecimal (chars : List Char) : Except ValueFault Nat :=
  if chars.isEmpty then .error .malformed
  else
    match chars.find? (fun char => !char.isDigit) with
    | some char => .error (.foreignChar char)
    | none =>
        let value := chars.foldl (fun total digit => total * 10 + (digit.toNat - 48)) 0
        if (chars.head? = some '0' ∧ 1 < chars.length) ∨ 4294967295 < value then
          .error .format
        else .ok value

def readParameter (chars : List Char) : Except EncodingFault (List Char × List Char) :=
  match chars.splitOn '=' with
  | [] => .error .badName
  | name :: values => do
      let name ← readName name
      match values with
      | [] => .error (.badValue .malformed)
      | value :: more =>
          let value ← (readValue value).mapError .badValue
          if more.isEmpty then .ok (name, value) else .error (.badValue .malformed)

def readParameters (chars : List Char) :
    Except EncodingFault (List (List Char × List Char)) :=
  if 127 < size chars then .error .tooManyParameters
  else (chars.splitOn ',').mapM readParameter

def readSalt (chars : List Char) : Except EncodingFault (List Char) :=
  if size chars < 4 then .error (.badSalt .tooShort)
  else (readValue chars).mapError .badSalt

/-- The number of bytes that so many symbols without padding carry. -/
def decodedLength (symbols : Nat) : Nat :=
  3 * (symbols / 4) + 3 * (symbols % 4) / 4

def readTag (chars : List Char) : Except EncodingFault Bytes :=
  if greatestTag < decodedLength (size chars) then .error .longTag
  else
    match Base64.decodeUnpadded? (String.ofList chars) with
    | none => .error .badBase64
    | some bytes => if bytes.length < leastTag then .error .shortTag else .ok bytes

def isVersion (field : List Char) : Bool :=
  ['v', '='].isPrefixOf field && !field.contains ','

/-- The version, if the first of some fields holds one, and the fields after it. -/
def readVersion (fields : List (List Char)) :
    Except EncodingFault (Option Nat × List (List Char)) :=
  match fields with
  | field :: rest =>
      if isVersion field then do
        let value ← (readValue (field.drop 2)).mapError .badValue
        let version ← (readDecimal value).mapError .badValue
        return (some version, rest)
      else .ok (none, fields)
  | [] => .ok (none, [])

/-- The parameters, if the first of some fields holds them, and the fields after it. -/
def takeParameters (fields : List (List Char)) :
    Except EncodingFault (List (List Char × List Char) × List (List Char)) :=
  match fields with
  | field :: rest =>
      if field.contains '=' then do return (← readParameters field, rest)
      else .ok ([], fields)
  | [] => .ok ([], [])

/-- Reads the parts of an encoded password. -/
def parse (text : String) : Except EncodingFault Encoded :=
  match text.toList.splitOn '$' with
  | [] :: name :: fields => do
      let algorithm ← readName name
      let (version, fields) ← readVersion fields
      let (parameters, fields) ← takeParameters fields
      let salt ← fields.head?.mapM readSalt
      let tag ← fields.tail.head?.mapM readTag
      if 2 < fields.length then throw .trailingField
      return { algorithm, version, parameters, salt, tag }
  | _ => .error .missingField

def decimal (value : Nat) : List Char := Nat.toDigits 10 value

def parameterChars (entry : List Char × List Char) : List Char :=
  entry.1 ++ '=' :: entry.2

/-- The fields of an encoded password after the name of its algorithm. -/
def fields (encoded : Encoded) : List (List Char) :=
  (encoded.version.map fun version => 'v' :: '=' :: decimal version).toList ++
    (if encoded.parameters.isEmpty then []
      else [[','].intercalate (encoded.parameters.map parameterChars)]) ++
    encoded.salt.toList ++
    (encoded.tag.map fun tag => (Base64.encodeUnpadded tag).toList).toList

def text (encoded : Encoded) : String :=
  String.ofList ((encoded.algorithm :: encoded.fields).flatMap ('$' :: ·))

end Encoded

end SealedDirectory.Password
