/-!
# Blank characters

A blank character is one with the property `White_Space`.  Names, addresses and
identifiers are compared without the blanks around them.
-/

namespace SealedDirectory.Text

def isBlank (char : Char) : Bool :=
  let code := char.toNat
  (9 ≤ code && code ≤ 13) || code == 0x20 || code == 0x85 || code == 0xa0 ||
    code == 0x1680 || (0x2000 ≤ code && code ≤ 0x200a) || code == 0x2028 ||
    code == 0x2029 || code == 0x202f || code == 0x205f || code == 0x3000

/-- The blanks of the basic Latin range. -/
def isBasicBlank (char : Char) : Bool :=
  let code := char.toNat
  (9 ≤ code && code ≤ 13) || code == 0x20

/-- A list of characters without those at its ends that have a property. -/
def strip (isLoose : Char → Bool) (chars : List Char) : List Char :=
  ((chars.dropWhile isLoose).reverse.dropWhile isLoose).reverse

/-- A list of characters without the blanks at its ends. -/
def trimChars (chars : List Char) : List Char :=
  strip isBlank chars

/-- A text without the blanks at its ends. -/
def trim (text : String) : String :=
  String.ofList (trimChars text.toList)

/-- A text with the letters from `A` to `Z` in lowercase. -/
def lowercase (text : String) : String :=
  String.ofList (text.toList.map Char.toLower)

/-- Every character that is blank in the basic Latin range has the property. -/
theorem isBlank_of_isWhitespace {char : Char} (white : char.isWhitespace = true) :
    isBlank char = true := by
  simp only [Char.isWhitespace, Bool.or_eq_true, decide_eq_true_eq] at white
  rcases white with ((rfl | rfl) | rfl) | rfl <;> decide

theorem trim_eq_ofList (text : String) : (trim text).toList = trimChars text.toList := by
  simp [trim]

end SealedDirectory.Text
