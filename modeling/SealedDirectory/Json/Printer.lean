import SealedDirectory.Bytes.Basic
import SealedDirectory.Json.Basic
import SealedDirectory.Json.Double

/-!
# Printing documents

A document is printed compactly, or over several lines with two spaces for every
level.  The two differ only in what stands between the tokens, so one printer
serves both and takes that from a `Layout`.

A quote, a backslash and the control characters are escaped in a text; every other
character stands for itself.
-/

namespace SealedDirectory.Json

/-- The decimal digits of a natural number. -/
def naturalChars (value : Nat) : List Char :=
  Nat.toDigits 10 value

/-- The decimal text of a whole number. -/
def integerChars : Int → List Char
  | .ofNat value => naturalChars value
  | .negSucc value => '-' :: naturalChars (value + 1)

/-- Doubles between `1e-5` and `1e16` have a plain point, and every exponent has a sign. -/
def doubleStyle : Double.Style :=
  { plainBelow := 16, plainFrom := -5, plusSign := "+" }

def numberChars : Number → List Char
  | .integer value => integerChars value
  | .float bits => (doubleStyle.write bits).toList

/-- How one character is written inside a text. -/
def escaped (char : Char) : List Char :=
  if char = '"' then ['\\', '"']
  else if char = '\\' then ['\\', '\\']
  else if 32 ≤ char.toNat then [char]
  else if char.toNat = 8 then ['\\', 'b']
  else if char.toNat = 9 then ['\\', 't']
  else if char.toNat = 10 then ['\\', 'n']
  else if char.toNat = 12 then ['\\', 'f']
  else if char.toNat = 13 then ['\\', 'r']
  else ['\\', 'u', '0', '0', Bytes.hexDigit (char.toNat / 16), Bytes.hexDigit (char.toNat % 16)]

def textChars (text : String) : List Char :=
  '"' :: text.toList.flatMap escaped ++ ['"']

/-- What stands between the tokens of a printed document. -/
structure Layout where
  /-- The start of a line at a level. -/
  lineBreak : (level : Nat) → List Char
  colon : List Char

def Layout.compact : Layout :=
  { lineBreak := fun _ => [], colon := [':'] }

/-- Every item and field on a line of its own. -/
def Layout.pretty : Layout :=
  { lineBreak := fun level => '\n' :: List.replicate (2 * level) ' '
    colon := [':', ' '] }

mutual

/-- The characters of a document that begins at a level. -/
def chars (layout : Layout) (level : Nat) : Json → List Char
  | .null => ['n', 'u', 'l', 'l']
  | .bool true => ['t', 'r', 'u', 'e']
  | .bool false => ['f', 'a', 'l', 's', 'e']
  | .number value => numberChars value
  | .text value => textChars value
  | .list [] => ['[', ']']
  | .list (first :: rest) =>
      '[' :: layout.lineBreak (level + 1) ++ chars layout (level + 1) first ++
        moreItems layout (level + 1) rest ++ layout.lineBreak level ++ [']']
  | .object [] => ['{', '}']
  | .object ((name, first) :: rest) =>
      '{' :: layout.lineBreak (level + 1) ++ textChars name ++ layout.colon ++
        chars layout (level + 1) first ++ moreFields layout (level + 1) rest ++
        layout.lineBreak level ++ ['}']

/-- The characters of the items after the first one. -/
def moreItems (layout : Layout) (level : Nat) : List Json → List Char
  | [] => []
  | item :: rest =>
      ',' :: layout.lineBreak level ++ chars layout level item ++
        moreItems layout level rest

/-- The characters of the fields after the first one. -/
def moreFields (layout : Layout) (level : Nat) : List (String × Json) → List Char
  | [] => []
  | (name, value) :: rest =>
      ',' :: layout.lineBreak level ++ textChars name ++ layout.colon ++
        chars layout level value ++ moreFields layout level rest

end

/-- The text of a document on one line. -/
def compact (document : Json) : String :=
  String.ofList (chars .compact 0 document)

/-- The text of a document over several lines. -/
def pretty (document : Json) : String :=
  String.ofList (chars .pretty 0 document)

end SealedDirectory.Json
