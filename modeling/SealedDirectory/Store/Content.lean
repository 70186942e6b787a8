import SealedDirectory.Json.Double
import SealedDirectory.Text.Blank

/-!
# Contents of cells

The store holds nothing, a whole number of sixty-four bits, a double or a text in a
cell.  A column has a leaning, to numbers or to texts, and a content that is put into
the column follows it where it can: in a column of numbers a text that writes a number
becomes that number, and a number that is whole is held as a whole number.  What cannot
follow is kept as it is.

A text writes a number if it consists of digits with a point among, before or behind
them, and an exponent if need be, each with a sign if need be.  Blanks may stand around
the number but not inside it.
-/

namespace SealedDirectory

inductive Content where
  | nothing
  | integer (value : Int)
  /-- A number that is not held as a whole number, by the bits of the nearest double. -/
  | double (bits : UInt64)
  | text (value : String)
  deriving DecidableEq, Repr

/-- A number as a text writes it. -/
structure Numeral where
  negative : Bool
  /-- The digits before and behind the point as one number. -/
  digits : Nat
  /-- The power of ten of the last digit. -/
  power : Int
  /-- Whether there is neither a point nor an exponent. -/
  plain : Bool
  deriving DecidableEq, Repr

namespace Numeral

/-- Splits off a sign; gives whether it was a minus sign. -/
def splitSign : List Char → Bool × List Char
  | '-' :: rest => (true, rest)
  | '+' :: rest => (false, rest)
  | chars => (false, chars)

def valueOf (digits : List Char) : Nat :=
  digits.foldl (fun total digit => total * 10 + (digit.toNat - 48)) 0

/-- The greatest exponent that is told from greater ones; either makes a number infinite. -/
def greatestExponent : Nat := 99999

/-- The exponent that characters write, if they are one; none at all is zero. -/
def exponent? : List Char → Option Int
  | [] => some 0
  | mark :: rest =>
      let (negative, digits) := splitSign rest
      if (mark = 'e' ∨ mark = 'E') ∧ digits ≠ [] ∧ digits.all Char.isDigit then
        let size : Int := min (valueOf digits) greatestExponent
        some (if negative then -size else size)
      else none

/-- The number that characters write without blanks around it. -/
def ofChars? (chars : List Char) : Option Numeral :=
  let (negative, unsigned) := splitSign chars
  let whole := unsigned.takeWhile Char.isDigit
  let afterWhole := unsigned.dropWhile Char.isDigit
  let pointed := afterWhole.head? = some '.'
  let behind := if pointed then afterWhole.tail else afterWhole
  let places := if pointed then behind.takeWhile Char.isDigit else []
  let rest := behind.drop places.length
  if whole = [] ∧ places = [] then none
  else
    (exponent? rest).map fun exponent =>
      { negative, digits := valueOf (whole ++ places), power := exponent - places.length
        plain := !pointed && rest.isEmpty }

def ofText? (text : String) : Option Numeral :=
  ofChars? (Text.strip Text.isBasicBlank text.toList)

def bits (numeral : Numeral) : UInt64 :=
  let size := Float.ofScientific numeral.digits (numeral.power < 0) numeral.power.natAbs
  (if numeral.negative then -size else size).toBits

/-- The least and the greatest whole number that the store holds as such. -/
def wholeRange : Int × Int := (-9223372036854775808, 9223372036854775807)

/--
The content for a number.  Digits alone are taken exactly if the whole number is in
range.  Any other number is taken as the nearest double, and that is held as a whole
number if it is one strictly inside the range.
-/
def content (numeral : Numeral) : Content :=
  let size : Int := numeral.digits
  let value := if numeral.negative then -size else size
  let (least, greatest) := wholeRange
  if numeral.plain ∧ least ≤ value ∧ value ≤ greatest then .integer value
  else
    match Double.whole? numeral.bits with
    | some value =>
        if least < value ∧ value < greatest then .integer value else .double numeral.bits
    | none => .double numeral.bits

end Numeral

namespace Content

/-- The name of the type of a content. -/
def typeName : Content → String
  | .nothing => "Null"
  | .integer _ => "Integer"
  | .double _ => "Real"
  | .text _ => "Text"

/-- In a column of numbers a text that writes a number becomes that number. -/
def inNumberColumn : Content → Content
  | .text value => (Numeral.ofText? value).elim (.text value) Numeral.content
  | other => other

/-- Doubles in columns of texts have a plain point below a thousand billions. -/
def doubleStyle : Double.Style :=
  { plainBelow := 15, plainFrom := -4, plusSign := "+" }

/-- In a column of texts a number becomes its decimal text. -/
def inTextColumn : Content → Content
  | .integer value => .text (toString value)
  | .double bits => .text (doubleStyle.write bits)
  | other => other

/-- The order of contents: nothing, then numbers by their values, then texts. -/
def atMost : Content → Content → Bool
  | .nothing, _ => true
  | _, .nothing => false
  | .text left, .text right => left ≤ right
  | .text _, _ => false
  | _, .text _ => true
  | .integer left, .integer right => left ≤ right
  | .integer left, .double right => left * Double.unitsPerOne ≤ Double.units right
  | .double left, .integer right => Double.units left ≤ right * Double.unitsPerOne
  | .double left, .double right => Double.units left ≤ Double.units right

end Content

end SealedDirectory
