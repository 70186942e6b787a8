import SealedDirectory.Bytes.Basic

/-!
# Universally unique identifiers

An identifier of this kind is thirty-two hexadecimal digits.  Its one canonical text
has lowercase digits in five groups of 8, 4, 4, 4 and 12 with hyphens between them.
Other texts are read as well: digits in either case, all digits without a hyphen,
and the canonical form inside braces or after `urn:uuid:`.
-/

namespace SealedDirectory

structure Uuid where
  digits : List (Fin 16)
  complete : digits.length = 32
  deriving DecidableEq, Repr

namespace Uuid

/-- The identifier whose digits are all zero. -/
def zero : Uuid :=
  ⟨List.replicate 32 0, by simp⟩

instance : Inhabited Uuid := ⟨zero⟩

/-- The value of a digit in either case. -/
def digit? (char : Char) : Option (Fin 16) :=
  (Bytes.hexValue? char).bind fun value =>
    if below : value < 16 then some ⟨value, below⟩ else none

def digitChar (digit : Fin 16) : Char :=
  Bytes.hexDigit digit.val

/-- The identifier with the given digits, if there are thirty-two. -/
def ofDigits? (digits : List (Fin 16)) : Option Uuid :=
  if complete : digits.length = 32 then some ⟨digits, complete⟩ else none

/-- Puts hyphens between groups of the given sizes and what is left over. -/
def hyphenate {α : Type} (hyphen : α) : List Nat → List α → List α
  | [], chars => chars
  | size :: sizes, chars =>
      chars.take size ++ hyphen :: hyphenate hyphen sizes (chars.drop size)

/-- The sizes of the groups before the last one. -/
def groupSizes : List Nat := [8, 4, 4, 4]

def chars (uuid : Uuid) : List Char :=
  hyphenate '-' groupSizes (uuid.digits.map digitChar)

def text (uuid : Uuid) : String :=
  String.ofList uuid.chars

/-- The first group of the canonical text. -/
def shortText (uuid : Uuid) : String :=
  String.ofList ((uuid.digits.take 8).map digitChar)

/-- Takes the hyphens out from between groups of the given sizes; they must stand there. -/
def unhyphenate : List Nat → List Char → Option (List Char)
  | [], chars => some chars
  | size :: sizes, chars =>
      match chars.drop size with
      | '-' :: rest =>
          if (chars.take size).length = size then
            (unhyphenate sizes rest).map (chars.take size ++ ·)
          else none
      | _ => none

/-- The identifier of thirty-two digits in a row. -/
def ofPlain? (chars : List Char) : Option Uuid :=
  (chars.mapM digit?).bind ofDigits?

/-- The identifier of digits in hyphenated groups. -/
def ofHyphenated? (chars : List Char) : Option Uuid :=
  (unhyphenate groupSizes chars).bind ofPlain?

/-- Why a text is not an identifier. -/
inductive Fault where
  /-- A character that is neither a digit nor a hyphen, and the bytes before it. -/
  | foreignChar (char : Char) (place : Nat)
  /-- Digits of which there are not thirty-two, or far too many characters. -/
  | length (found : Nat)
  | groupCount (found : Nat)
  | groupLength (group expected found : Nat)
  deriving DecidableEq, Repr

def Fault.message : Fault → String
  | .foreignChar char place =>
      "invalid character: found `" ++ String.ofList [char] ++ "` at " ++ toString place
  | .length found => "invalid length: found " ++ toString found
  | .groupCount found => "invalid group count: expected 5, found " ++ toString found
  | .groupLength group expected found =>
      "invalid group length in group " ++ toString group ++ ": expected " ++
        toString expected ++ ", found " ++ toString found

/-- What may stand before a hyphenated identifier, in either case. -/
def urnMark : List Char := "urn:uuid:".toList

/-- The text inside braces or after the mark, and how many characters stand before it. -/
def unwrap (chars : List Char) : List Char × Nat :=
  if chars.head? = some '{' ∧ chars.getLast? = some '}' ∧ 2 ≤ chars.length then
    (chars.tail.dropLast, 1)
  else if (chars.take 9).map Char.toLower = urnMark then (chars.drop 9, 9)
  else (chars, 0)

/-- The first character that is neither a digit nor a hyphen, with the bytes before it. -/
def foreignChar? (passed : Nat) : List Char → Option (Char × Nat)
  | [] => none
  | char :: rest =>
      if char = '-' ∨ (digit? char).isSome then foreignChar? (passed + char.utf8Size) rest
      else some (char, passed)

/-- The sizes of the groups between hyphens. -/
def groupLengths (chars : List Char) : List Nat :=
  (chars.splitOn '-').map List.length

/-- The first group whose size is not the expected one. -/
def wrongGroup? (group : Nat) : List Nat → List Nat → Option Fault
  | expected :: sizes, found :: lengths =>
      if found = expected then wrongGroup? (group + 1) sizes lengths
      else some (.groupLength group expected found)
  | _, _ => none

/--
Why characters are refused that follow so many others in a text of a given size, foreign
characters first.  Digits without a hyphen are judged by their number unless groups were
expected.  The last group is taken to begin after the first twenty-four characters of the
text.
-/
def reason (size passed : Nat) (grouped : Bool) (chars : List Char) : Fault :=
  match foreignChar? passed chars with
  | some (char, place) => .foreignChar char place
  | none =>
      let lengths := groupLengths chars
      if lengths.length = 1 ∧ !grouped then .length size
      else if lengths.length ≠ 5 then .groupCount lengths.length
      else (wrongGroup? 0 groupSizes lengths).getD (.groupLength 4 12 (size - 24))

def byteCount (chars : List Char) : Nat :=
  (String.ofList chars).utf8ByteSize

/--
Why a text is refused.  A text of the size of plain or grouped digits is taken as such,
and places are counted from the first digit if a wrapped text has the size of grouped
digits.  A text that is longer than every form of an identifier is only told so.
-/
def faultOf (chars : List Char) : Fault :=
  let size := byteCount chars
  let (inner, before) := unwrap chars
  if size = 32 ∨ size = 36 then reason size 0 (size == 36) chars
  else if 45 < size then .length size
  else if 0 < before ∧ byteCount inner = 36 then reason size 0 true inner
  else reason size before (0 < before) inner

def ofChars (chars : List Char) : Except Fault Uuid :=
  let (inner, before) := unwrap chars
  match (if before = 0 then ofPlain? chars else none) <|> ofHyphenated? inner with
  | some uuid => .ok uuid
  | none => .error (faultOf chars)

/-- The identifier that a text writes down. -/
def parse (text : String) : Except Fault Uuid :=
  ofChars text.toList

/-- Identifiers are ordered by their digits from left to right. -/
instance : LT Uuid := ⟨fun left right => left.digits < right.digits⟩

instance (left right : Uuid) : Decidable (left < right) :=
  inferInstanceAs (Decidable (left.digits < right.digits))

theorem lt_irrefl (uuid : Uuid) : ¬ uuid < uuid :=
  List.lt_irrefl uuid.digits

theorem lt_trans {first second third : Uuid} (before : first < second)
    (after : second < third) : first < third :=
  List.lt_trans before after

theorem lt_of_not_lt_of_ne {left right : Uuid} (notBelow : ¬ left < right)
    (different : left ≠ right) : right < left := by
  apply Decidable.byContradiction
  intro notAbove
  apply different
  have same : left.digits = right.digits := List.le_antisymm notAbove notBelow
  cases left
  cases right
  simpa using same

/-- The digits of bytes, the high half of each byte first. -/
def digitsOfBytes (bytes : Bytes) : List (Fin 16) :=
  bytes.flatMap fun byte =>
    [⟨byte.toNat / 16 % 16, Nat.mod_lt _ (by decide)⟩,
     ⟨byte.toNat % 16, Nat.mod_lt _ (by decide)⟩]

/-- Marks random bytes as such: the thirteenth digit is 4 and the seventeenth 8, 9, a or b. -/
def markRandom (digits : List (Fin 16)) : List (Fin 16) :=
  (digits.set 12 4).modify 16 fun digit => ⟨8 + digit.val % 4, by omega⟩

/-- A random identifier from sixteen random bytes; missing bytes count as zero. -/
def ofRandom (bytes : Bytes) : Uuid :=
  let padded := (digitsOfBytes bytes ++ List.replicate 32 0).take 32
  ⟨markRandom padded, by simp [markRandom, padded]⟩

def version (uuid : Uuid) : Nat :=
  (uuid.digits.getD 12 0).val

/-- Whether the variant is the one of the digits 8, 9, a and b. -/
def hasStandardVariant (uuid : Uuid) : Bool :=
  let digit := (uuid.digits.getD 16 0).val
  8 ≤ digit && digit < 12

end Uuid

end SealedDirectory
