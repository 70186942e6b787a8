import SealedDirectory.Json.Printer
import SealedDirectory.Yaml.Scalar

/-!
# Printing documents in the block format

A document is printed with one item or field on a line, indented by two for every
level; lists inside an object are not indented further.  Empty lists and objects are
printed as pairs of brackets.  A name that is too long or has several lines is put
behind a question mark, and its value behind a colon on a line of its own.

Where a line break or a blank is needed depends on what was printed last, so the
printer carries a pen that knows its column and whether it stands after white space
or after nothing but indentation.
-/

namespace SealedDirectory.Yaml

/-- What is printed so far, in reverse, and where the pen stands. -/
structure Pen where
  reversed : List Char := []
  column : Nat := 0
  afterBlank : Bool := true
  /-- Whether the line holds nothing but indentation and marks of items. -/
  atIndent : Bool := true

namespace Pen

def put (pen : Pen) (char : Char) : Pen :=
  { pen with reversed := char :: pen.reversed, column := pen.column + 1 }

def puts (pen : Pen) (chars : List Char) : Pen :=
  chars.foldl put pen

def endLine (pen : Pen) : Pen :=
  { pen with reversed := '\n' :: pen.reversed, column := 0 }

/-- Prints a character that ends the line. -/
def putBreak (pen : Pen) (char : Char) : Pen :=
  { pen with reversed := char :: pen.reversed, column := 0, atIndent := true }

/-- Moves to an indentation, on a new line unless the pen can get there on this one. -/
def indentTo (pen : Pen) (indent : Nat) : Pen :=
  let moved :=
    if !pen.atIndent || indent < pen.column || (pen.column == indent && !pen.afterBlank) then
      pen.endLine
    else pen
  { moved.puts (List.replicate (indent - moved.column) ' ') with
    afterBlank := true, atIndent := true }

def mark (pen : Pen) (chars : List Char) (needsBlank blank keepsIndent : Bool) : Pen :=
  let pen := if needsBlank && !pen.afterBlank then pen.put ' ' else pen
  let written := pen.puts chars
  { written with afterBlank := blank, atIndent := written.atIndent && keepsIndent }

/-- After a text the pen stands neither after white space nor at an indentation. -/
def afterText (pen : Pen) : Pen :=
  { pen with afterBlank := false, atIndent := false }

def plain (pen : Pen) (chars : List Char) : Pen :=
  let pen := if !pen.afterBlank && !chars.isEmpty then pen.put ' ' else pen
  (pen.puts chars).afterText

/-- Prints characters between single quotes; a line break is followed by an indentation. -/
def singleQuotedChars (indent : Nat) (breaks : Bool) (pen : Pen) : List Char → Pen
  | [] => if breaks then pen.indentTo indent else pen
  | char :: rest =>
      if char = ' ' then singleQuotedChars indent breaks (pen.put ' ') rest
      else if isBreak char then singleQuotedChars indent true (pen.putBreak char) rest
      else
        let pen := if breaks then pen.indentTo indent else pen
        let pen := if char = '\'' then pen.put '\'' else pen
        singleQuotedChars indent false { pen.put char with atIndent := false } rest

def singleQuoted (pen : Pen) (indent : Nat) (chars : List Char) : Pen :=
  let opened := pen.mark ['\''] true false false
  ((singleQuotedChars indent false opened chars).mark ['\''] false false false).afterText

/-- The uppercase hexadecimal digits of a number in a fixed width. -/
def hexDigits (width value : Nat) : List Char :=
  (List.range width).reverse.map fun place =>
    let digit := value / Nat.pow 16 place % 16
    if digit < 10 then Char.ofNat (48 + digit) else Char.ofNat (55 + digit)

/-- The letter of a character that has a short escape. -/
def shortEscape? (code : Nat) : Option Char :=
  ([(0x00, '0'), (0x07, 'a'), (0x08, 'b'), (0x09, 't'), (0x0a, 'n'), (0x0b, 'v'), (0x0c, 'f'),
    (0x0d, 'r'), (0x1b, 'e'), (0x22, '"'), (0x5c, '\\'), (0x85, 'N'), (0xa0, '_'),
    (0x2028, 'L'), (0x2029, 'P')].find? fun (number, _) => number = code).map (·.2)

def escaped (char : Char) : List Char :=
  let code := char.toNat
  if isPrintable char ∧ ¬ isBreak char ∧ char ≠ '"' ∧ char ≠ '\\' then [char]
  else
    match shortEscape? code with
    | some letter => ['\\', letter]
    | none =>
        if code ≤ 0xff then '\\' :: 'x' :: hexDigits 2 code
        else if code ≤ 0xffff then '\\' :: 'u' :: hexDigits 4 code
        else '\\' :: 'U' :: hexDigits 8 code

def doubleQuoted (pen : Pen) (chars : List Char) : Pen :=
  let opened := pen.mark ['"'] true false false
  ((opened.puts (chars.flatMap escaped)).mark ['"'] false false false).afterText

/-- What stands behind the bar of a literal block: its indentation and how it ends. -/
def literalHints (chars : List Char) : List Char :=
  let indentHint :=
    match chars.head? with
    | some char => if char == ' ' || isBreak char then ['2'] else []
    | none => []
  let endHint :=
    match chars.reverse with
    | [] => ['-']
    | [last] => if isBreak last then ['+'] else ['-']
    | last :: before :: _ =>
        if !isBreak last then ['-'] else if isBreak before then ['+'] else []
  indentHint ++ endHint

/-- Prints the lines of a literal block. -/
def literalChars (indent : Nat) (breaks : Bool) (pen : Pen) : List Char → Pen
  | [] => pen
  | char :: rest =>
      if isBreak char then literalChars indent true (pen.putBreak char) rest
      else
        let pen := if breaks then pen.indentTo indent else pen
        literalChars indent false { pen.put char with atIndent := false } rest

/-- Prints a text as a literal block. -/
def literal (pen : Pen) (indent : Nat) (chars : List Char) : Pen :=
  let opened := (pen.mark ['|'] true false false).mark (literalHints chars) false false false
  literalChars indent true { opened.endLine with afterBlank := true, atIndent := true } chars

def text (pen : Pen) (indent : Nat) (shortKey : Bool) (chars : List Char) : Pen :=
  match styleOf shortKey chars with
  | .plain => pen.plain chars
  | .singleQuoted => pen.singleQuoted indent chars
  | .doubleQuoted => pen.doubleQuoted chars
  | .literal => pen.literal indent chars

end Pen

/-- Doubles have no sign in front of a positive exponent. -/
def doubleStyle : Double.Style :=
  { plainBelow := 16, plainFrom := -5, plusSign := "" }

def numberChars : Number → List Char
  | .integer value => Json.integerChars value
  | .float bits => (doubleStyle.write bits).toList

/-- The indentation of a level inside another one; the outermost level has none. -/
def nested : Option Nat → Nat
  | none => 0
  | some indent => indent + 2

/-- Prints the name of a field and what stands between it and its value. -/
def printName (pen : Pen) (indent : Nat) (name : List Char) : Pen :=
  let pen := pen.indentTo indent
  if isShortKey name then
    (pen.text (indent + 2) true name).mark [':'] false false false
  else
    let named := (pen.mark ['?'] true false true).text (indent + 2) false name
    (named.indentTo indent).mark [':'] true false true

mutual

/--
Prints a document inside the level of a given indentation; `inObject` says whether it
is the value of a field.
-/
def print (level : Option Nat) (inObject : Bool) (pen : Pen) : Json → Pen
  | .null => pen.plain "null".toList
  | .bool true => pen.plain "true".toList
  | .bool false => pen.plain "false".toList
  | .number value => pen.plain (numberChars value)
  | .text value => pen.text (nested level) false value.toList
  | .list [] => (pen.mark ['['] true true false).mark [']'] false false false
  | .list (first :: rest) =>
      let indent :=
        match level with
        | some indent => if inObject && !pen.atIndent then indent else indent + 2
        | none => 0
      printItems indent pen (first :: rest)
  | .object [] => (pen.mark ['{'] true true false).mark ['}'] false false false
  | .object (first :: rest) => printFields (nested level) pen (first :: rest)

/-- Prints items on lines of their own. -/
def printItems (indent : Nat) (pen : Pen) : List Json → Pen
  | [] => pen
  | item :: rest =>
      let marked := (pen.indentTo indent).mark ['-'] true false true
      printItems indent (print (some indent) false marked item) rest

/-- Prints fields on lines of their own. -/
def printFields (indent : Nat) (pen : Pen) : List (String × Json) → Pen
  | [] => pen
  | (name, value) :: rest =>
      let named := printName pen indent name.toList
      printFields indent (print (some indent) true named value) rest

end

/-- The text of a document in the block format. -/
def write (document : Json) : String :=
  String.ofList ((print none false {} document).indentTo 0).reversed.reverse

end SealedDirectory.Yaml
