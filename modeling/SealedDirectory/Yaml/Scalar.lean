/-!
# Scalars of the block format

A text can be written plainly, between single or double quotes, or as a literal
block.  Which of these are allowed follows from its characters; which one is chosen
follows further from what a plain text would be taken for.  A text that reads as
nothing, as a truth value or as a number is never written plainly, and a text of
several lines is written as a literal block where that is allowed.
-/

namespace SealedDirectory.Yaml

inductive ScalarStyle where
  | plain
  | singleQuoted
  | doubleQuoted
  | literal
  deriving DecidableEq, Repr

def isBreak (char : Char) : Bool :=
  let code := char.toNat
  code == 0x0a || code == 0x0d || code == 0x85 || code == 0x2028 || code == 0x2029

/-- Whether a character can be shown; a tab cannot. -/
def isPrintable (char : Char) : Bool :=
  let code := char.toNat
  code == 0x0a || (0x20 ≤ code && code ≤ 0x7e) || (0xa0 ≤ code && code ≤ 0xd7ff) ||
    (0xe000 ≤ code && code ≤ 0xfffd && code != 0xfeff) || 0x10000 ≤ code

/-- Whether what follows counts as white space; the end of the text does. -/
def isBlankOrEnd : Option Char → Bool
  | none => true
  | some char => char == ' ' || char == '\t' || char.toNat == 0 || isBreak char

/-- What the characters of a text are like. -/
structure Analysis where
  multiline : Bool := false
  /-- Something in it would be taken for a mark of the format. -/
  marked : Bool := false
  special : Bool := false
  leadingSpace : Bool := false
  leadingBreak : Bool := false
  trailingSpace : Bool := false
  trailingBreak : Bool := false
  /-- A line break is followed by a space. -/
  breakSpace : Bool := false
  /-- A space is followed by a line break. -/
  spaceBreak : Bool := false
  deriving DecidableEq, Repr

/-- Characters that are marks of the format at the beginning of a text. -/
def leadingMarks : List Char :=
  ['#', ',', '[', ']', '{', '}', '&', '*', '!', '|', '>', '\'', '"', '%', '@', '`']

/-- Whether the first character of a text is a mark, by the character after it. -/
def marksFirst (char : Char) (next : Option Char) : Bool :=
  leadingMarks.contains char ||
    ((char == '?' || char == ':' || char == '-') && isBlankOrEnd next)

/-- Whether a later character is a mark, by its neighbours. -/
def marksLater (char : Char) (previous next : Option Char) : Bool :=
  (char == ':' && isBlankOrEnd next) || (char == '#' && isBlankOrEnd previous)

/-- Looks at the characters of a text one by one. -/
def analyzeFrom (previous : Option Char) (seen : Analysis) : List Char → Analysis
  | [] => seen
  | char :: rest =>
      let isSpace := char == ' '
      let broken := isBreak char
      let first := previous.isNone
      let last := rest.isEmpty
      analyzeFrom (some char)
        { multiline := seen.multiline || broken
          marked := seen.marked ||
            (if first then marksFirst char rest.head?
              else marksLater char previous rest.head?)
          special := seen.special || !isPrintable char
          leadingSpace := seen.leadingSpace || (first && isSpace)
          leadingBreak := seen.leadingBreak || (first && broken)
          trailingSpace := seen.trailingSpace || (last && isSpace)
          trailingBreak := seen.trailingBreak || (last && broken)
          breakSpace := seen.breakSpace || (isSpace && previous.any isBreak)
          spaceBreak := seen.spaceBreak || (broken && previous == some ' ') }
        rest

/-- What the characters of a text are like. -/
def analyze (chars : List Char) : Analysis :=
  let dashes := chars.take 3 == ['-', '-', '-'] || chars.take 3 == ['.', '.', '.']
  analyzeFrom none { marked := dashes } chars

namespace Analysis

/-- Whether a text may be written plainly. -/
def allowsPlain (analysis : Analysis) : Bool :=
  !(analysis.marked || analysis.multiline || analysis.special || analysis.leadingSpace ||
    analysis.leadingBreak || analysis.trailingSpace || analysis.trailingBreak ||
    analysis.breakSpace || analysis.spaceBreak)

/-- Whether a text may stand between single quotes. -/
def allowsSingleQuotes (analysis : Analysis) : Bool :=
  !(analysis.breakSpace || analysis.spaceBreak || analysis.special)

/-- Whether a text may be a literal block. -/
def allowsLiteral (analysis : Analysis) : Bool :=
  !(analysis.trailingSpace || analysis.spaceBreak || analysis.special)

end Analysis

def withoutSign : List Char → List Char
  | '+' :: rest => rest
  | '-' :: rest => rest
  | chars => chars

/-- Whether digits begin with a zero that no number would have. -/
def hasLeadingZero (chars : List Char) : Bool :=
  let digits := withoutSign chars
  1 < digits.length && digits.head? == some '0' && digits.all Char.isDigit

/-- The value of a digit in a base. -/
def digitIn? (base : Nat) (char : Char) : Option Nat :=
  let code := char.toNat
  let value :=
    if 48 ≤ code ∧ code ≤ 57 then code - 48
    else if 97 ≤ code ∧ code ≤ 122 then code - 87
    else if 65 ≤ code ∧ code ≤ 90 then code - 55
    else base
  if value < base then some value else none

/-- The number that digits of a base write down. -/
def naturalIn? (base : Nat) (chars : List Char) : Option Nat :=
  if chars.isEmpty then none
  else chars.foldlM (fun total char => (digitIn? base char).map (total * base + ·)) 0

/-- The digits of a number and their base, by the mark in front of them. -/
def baseOf : List Char → Nat × List Char
  | '0' :: 'x' :: rest => (16, rest)
  | '0' :: 'o' :: rest => (8, rest)
  | '0' :: 'b' :: rest => (2, rest)
  | chars => (10, chars)

/-- Whether a text reads as a whole number of at most 128 bits. -/
def readsAsInteger (chars : List Char) : Bool :=
  let (base, digits) := baseOf (withoutSign chars)
  if base == 10 && hasLeadingZero chars then false
  else
    match naturalIn? base digits with
    | none => false
    | some size => if chars.head? == some '-' then size ≤ Nat.pow 2 127 else size < Nat.pow 2 128

/-- The first natural number whose double would be infinite. -/
def doubleLimit : Nat := (Nat.pow 2 54 - 1) * Nat.pow 2 970

/-- Whether `significand * 10 ^ exponent` is below the limit of the doubles. -/
def isFinite (significand : Nat) (exponent : Int) : Bool :=
  if significand = 0 then true
  else
    let size : Int := (Nat.toDigits 10 significand).length
    if 320 < size + exponent then false
    else
      match exponent with
      | .ofNat power => significand * Nat.pow 10 power < doubleLimit
      | .negSucc power =>
          if size + 320 < power then true else significand < doubleLimit * Nat.pow 10 (power + 1)

/-- Whether a text without a sign reads as a finite decimal number. -/
def readsAsDecimal (chars : List Char) : Bool :=
  let whole := chars.takeWhile Char.isDigit
  let rest := chars.dropWhile Char.isDigit
  let (fraction, rest) :=
    match rest with
    | '.' :: rest => (rest.takeWhile Char.isDigit, rest.dropWhile Char.isDigit)
    | _ => ([], rest)
  let digits := whole ++ fraction
  if digits.isEmpty then false
  else
    let significand := (naturalIn? 10 digits).getD 0
    match rest with
    | [] => isFinite significand (-(fraction.length : Int))
    | letter :: power =>
        if letter != 'e' && letter != 'E' then false
        else
          match naturalIn? 10 (withoutSign power) with
          | none => false
          | some size =>
              let exponent : Int := if power.head? == some '-' then -(size : Int) else size
              isFinite significand (exponent - fraction.length)

/-- The words for infinities, which may have a sign, and for what is no number. -/
def infinityWords : List (List Char) :=
  [".inf".toList, ".Inf".toList, ".INF".toList]

/-- The words for what is no number. -/
def undefinedWords : List (List Char) :=
  [".nan".toList, ".NaN".toList, ".NAN".toList]

/-- The words for nothing and for truth values. -/
def reservedWords : List (List Char) :=
  ["", "null", "Null", "NULL", "~", "true", "True", "TRUE", "false", "False", "FALSE"].map
    String.toList

/-- Whether a text that is written plainly would be taken for something else. -/
def isAmbiguous (chars : List Char) : Bool :=
  reservedWords.contains chars || readsAsInteger chars || hasLeadingZero chars ||
    infinityWords.contains (withoutSign chars) || undefinedWords.contains chars ||
    readsAsDecimal (withoutSign chars)

def byteSize (chars : List Char) : Nat :=
  chars.foldl (fun total char => total + char.utf8Size) 0

/-- The greatest number of bytes of a text that may be a short key. -/
def shortKeyLimit : Nat := 128

/-- Whether a text may stand before a colon on the same line. -/
def isShortKey (chars : List Char) : Bool :=
  !(analyze chars).multiline && byteSize chars ≤ shortKeyLimit

/-- The style of a text; a short key is never a literal block. -/
def styleOf (shortKey : Bool) (chars : List Char) : ScalarStyle :=
  let analysis := analyze chars
  if chars.contains '\n' then
    if analysis.allowsLiteral && !shortKey then .literal else .doubleQuoted
  else if !isAmbiguous chars && analysis.allowsPlain then .plain
  else if analysis.allowsSingleQuotes then .singleQuoted
  else .doubleQuoted

end SealedDirectory.Yaml
