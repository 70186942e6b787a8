import SealedDirectory.Json.Cursor

/-!
# Reading documents

Texts, numbers and whole documents.  A document may be nested `depthLimit - 1`
levels deep; the remaining depth is the argument on which reading recurs, and the
number of characters still to be read bounds the items of a list.

A value that nobody asks for is passed over: it must be well formed, but its depth,
the range of its numbers and the pairing of its escapes are not looked at.
-/

namespace SealedDirectory.Json

namespace Reader

/-- The value of the four hexadecimal digits of an escape. -/
def fourDigits? : List Char → Option Nat
  | [first, second, third, fourth] => do
      let first ← Bytes.hexValue? first
      let second ← Bytes.hexValue? second
      let third ← Bytes.hexValue? third
      let fourth ← Bytes.hexValue? fourth
      return ((first * 16 + second) * 16 + third) * 16 + fourth
  | _ => none

def size (chars : List Char) : Nat :=
  chars.foldl (fun total char => total + char.utf8Size) 0

/-- Reads the four digits of an escape. -/
def hexEscape : Reader Nat := do
  let cursor ← get
  if size (cursor.rest.take 4) < 4 then
    throw (.at .endOfText (cursor.passed + size cursor.rest))
  else
    match fourDigits? (cursor.rest.take 4) with
    | some value =>
        set (Cursor.mk (cursor.rest.drop 4) (cursor.passed + 4))
        return value
    | none => throw (.at .badEscape (cursor.passed + 4))

/-- Passes one character, or fails for one that is missing or another. -/
def expectInEscape (expected : Char) : Reader Unit := do
  match ← peek? with
  | none => fail .endOfText
  | some char =>
      if char = expected then skip
      else throw (.at .noSecondSurrogate ((← get).passed + 1))

/-- Reads the character of an escape by number, after the `u`. -/
def numberedChar : Reader Char := do
  let first ← hexEscape
  if 0xdc00 ≤ first ∧ first ≤ 0xdfff then fail .loneSurrogate
  else if 0xd800 ≤ first ∧ first ≤ 0xdbff then
    expectInEscape '\\'
    expectInEscape 'u'
    let second ← hexEscape
    if second < 0xdc00 ∨ 0xdfff < second then fail .loneSurrogate
    else return Char.ofNat ((first - 0xd800) * 0x400 + (second - 0xdc00) + 0x10000)
  else return Char.ofNat first

/-- The character that a letter after a backslash stands for. -/
def shortEscape? (letter : Char) : Option Char :=
  if letter = '"' ∨ letter = '\\' ∨ letter = '/' then some letter
  else if letter = 'b' then some (Char.ofNat 8)
  else if letter = 'f' then some (Char.ofNat 12)
  else if letter = 'n' then some '\n'
  else if letter = 'r' then some '\r'
  else if letter = 't' then some '\t'
  else none

/-- Reads the character of an escape, after the backslash. -/
def escape : Reader Char := do
  let cursor ← get
  match ← next? with
  | none => fail .endOfText
  | some letter =>
      match shortEscape? letter with
      | some char => return char
      | none =>
          if letter = 'u' then numberedChar
          else throw (.at .badEscape (cursor.passed + 1))

/-- The characters of a text up to its closing quote. -/
def quotedChars : (fuel : Nat) → Reader (List Char)
  | 0 => fail .endOfText
  | fuel + 1 => do
      match ← next? with
      | none => fail .endOfText
      | some char =>
          if char = '"' then return []
          else if char = '\\' then
            let value ← escape
            return value :: (← quotedChars fuel)
          else if char.toNat < 32 then fail .controlCharacter
          else return char :: (← quotedChars fuel)

/-- Reads a text whose opening quote is passed. -/
def quoted : Reader String := do
  return String.ofList (← quotedChars ((← get).rest.length + 1))

/-- Passes over the rest of a text whose opening quote is passed. -/
def skipQuoted : (fuel : Nat) → Reader Unit
  | 0 => fail .endOfText
  | fuel + 1 => do
      match ← peek? with
      | none => fail .endOfText
      | some char =>
          if char = '"' then skip
          else if char = '\\' then
            skip
            let cursor ← get
            match ← next? with
            | none => fail .endOfText
            | some letter =>
                if letter = 'u' then
                  let _ ← hexEscape
                else if (shortEscape? letter).isNone then
                  throw (.at .badEscape (cursor.passed + 1))
            skipQuoted fuel
          else if char.toNat < 32 then fail .controlCharacter
          else
            skip
            skipQuoted fuel

def digitValue (digit : Char) : Nat := digit.toNat - 48

structure Numeral where
  negative : Bool
  whole : List Char
  /-- The digits after the point, if there is one. -/
  fraction : Option (List Char)
  /-- The sign and the digits of the exponent, if there is one. -/
  exponent : Option (Bool × List Char)

/-- Reads the digits before the point; a text that ends there has the given fault. -/
def wholeDigits (atEnd : Cause) : Reader (List Char) := do
  let cursor ← get
  match ← peek? with
  | none => fail atEnd
  | some char =>
      if char = '0' then
        skip
        match ← peek? with
        | some digit => if digit.isDigit then failAhead .badNumber else return ['0']
        | none => return ['0']
      else if char.isDigit then takeWhile Char.isDigit
      else throw (.at .badNumber (cursor.passed + 1))

/-- Reads the point and the digits after it, if there is a point. -/
def fractionDigits (atEnd : Cause) : Reader (Option (List Char)) := do
  if (← peek?) == some '.' then
    skip
    let digits ← takeWhile Char.isDigit
    if digits.isEmpty then
      match ← peek? with
      | some _ => failAhead .badNumber
      | none => failAhead atEnd
    else return some digits
  else return none

/-- Reads the sign and the digits of the exponent, if there is one. -/
def exponentDigits (atEnd : Cause) : Reader (Option (Bool × List Char)) := do
  let letter ← peek?
  if letter == some 'e' || letter == some 'E' then
    skip
    let sign ← peek?
    if sign == some '+' || sign == some '-' then skip
    let cursor ← get
    match ← peek? with
    | none => fail atEnd
    | some char =>
        if char.isDigit then
          let digits ← takeWhile Char.isDigit
          return some (sign == some '-', digits)
        else throw (.at .badNumber (cursor.passed + 1))
  else return none

/--
Reads a numeral.  A text that ends inside it is reported with the given cause.
-/
def numeral (atEnd : Cause) : Reader Numeral := do
  let negative := (← peek?) == some '-'
  if negative then skip
  let whole ← wholeDigits atEnd
  let fraction ← fractionDigits atEnd
  let exponent ← exponentDigits atEnd
  return { negative, whole, fraction, exponent }

def significandLimit : Nat := 18446744073709551615

/-- Appends digits to a significand while it stays within its limit; gives the digits left over. -/
def accumulate (significand : Nat) : List Char → Nat × List Char
  | [] => (significand, [])
  | digit :: rest =>
      let next := significand * 10 + digitValue digit
      if next ≤ significandLimit then accumulate next rest
      else (significand, digit :: rest)

/-- A double times a power of ten, in as many steps as there are powers of ten among the doubles. -/
def scaleBy (value : Float) (exponent : Int) : (fuel : Nat) → Option Float
  | 0 => some value
  | fuel + 1 =>
      if exponent.natAbs ≤ 308 then
        let power := Float.ofScientific 1 false exponent.natAbs
        if 0 ≤ exponent then
          let product := value * power
          if product.isInf then none else some product
        else some (value / power)
      else if value == 0.0 then some value
      else if 0 ≤ exponent then none
      else scaleBy (value / Float.ofScientific 1 false 308) (exponent + 308) fuel

def exponentLimit : Nat := 2147483647

/-- The number of digits after which an exponent exceeds its limit, if it does. -/
def exponentOverflow (value passed : Nat) : List Char → Option Nat
  | [] => none
  | digit :: rest =>
      let next := value * 10 + digitValue digit
      if exponentLimit < next then some (passed + 1)
      else exponentOverflow next (passed + 1) rest

def naturalOfDigits (digits : List Char) : Nat :=
  digits.foldl (fun total digit => total * 10 + digitValue digit) 0

def signed (negative : Bool) (value : Float) : Number :=
  .float (if negative then -value else value).toBits

/-- The double of a numeral, of which the exponent ends where the cursor stands. -/
def doubleOf (numeral : Numeral) : Reader Number := do
  let (significand, dropped) := accumulate 0 numeral.whole
  let fraction := numeral.fraction.getD []
  let (significand, beyond) := accumulate significand fraction
  let shift : Int := (dropped.length : Int) - ((fraction.length - beyond.length : Nat) : Int)
  let scaled (exponent : Int) : Reader Number :=
    match scaleBy (UInt64.ofNat significand).toFloat exponent (exponent.natAbs / 308 + 2) with
    | some value => return signed numeral.negative value
    | none => fail .numberTooLarge
  match numeral.exponent with
  | none => scaled shift
  | some (isNegative, digits) =>
      match exponentOverflow 0 0 digits with
      | some used =>
          if significand ≠ 0 ∧ !isNegative then
            throw (.at .numberTooLarge ((← get).passed - (digits.length - used)))
          else return signed numeral.negative 0.0
      | none =>
          let exponent : Int := naturalOfDigits digits
          scaled (if isNegative then shift - exponent else shift + exponent)

def number : Reader Number := do
  let numeral ← numeral .endOfValue
  if numeral.fraction.isNone && numeral.exponent.isNone then
    let value := naturalOfDigits numeral.whole
    if numeral.negative then
      if 0 < value ∧ value ≤ 9223372036854775808 then return .integer (-(value : Int))
      else doubleOf numeral
    else if value ≤ significandLimit then return .integer value
    else doubleOf numeral
  else doubleOf numeral

/-- Whether a number begins with a character. -/
def beginsNumber (char : Char) : Bool := char == '-' || char.isDigit

/-- The depth that a document may not reach. -/
def depthLimit : Nat := 128

/-- Enters a list or an object, of which so many levels may still be open. -/
def enter {α : Type} (depth : Nat) (inside : (depth : Nat) → Reader α) : Reader α :=
  match depth with
  | 0 => failAhead .tooDeep
  | 1 => failAhead .tooDeep
  | depth + 1 => do
      skip
      inside depth

/-- Reads the items of a list up to its end. -/
def items {α : Type} (item : Reader α) (isFirst : Bool) : (fuel : Nat) → Reader (List α)
  | 0 => failAhead .endOfList
  | fuel + 1 => do
      if ← hasItem isFirst then
        let value ← item
        return value :: (← items item false fuel)
      else return []

/-- Folds the fields of an object up to its end. -/
def fields {σ : Type} (field : σ → Reader σ) (isFirst : Bool) : (fuel : Nat) → σ → Reader σ
  | 0, _ => failAhead .endOfObject
  | fuel + 1, state => do
      if ← hasField isFirst then
        fields field false fuel (← field state)
      else return state

/-- A bound on the items that the rest of the text can hold. -/
def fuel : Reader Nat := do
  return (← get).rest.length + 1

/-- Reads a name, whose opening quote is ahead. -/
def name : Reader String := do
  skip
  quoted

def value : (depth : Nat) → Reader Json
  | 0 => failAhead .tooDeep
  | depth + 1 => do
      let char ← peekToken .endOfValue
      if char = 'n' then
        skip
        word ['u', 'l', 'l']
        return .null
      else if char = 't' then
        skip
        word ['r', 'u', 'e']
        return .bool true
      else if char = 'f' then
        skip
        word ['a', 'l', 's', 'e']
        return .bool false
      else if beginsNumber char then return .number (← number)
      else if char = '"' then
        skip
        return .text (← quoted)
      else if char = '[' then
        if depth = 0 then failAhead .tooDeep
        skip
        closing (do return .list (← items (value depth) true (← fuel))) closeList
      else if char = '{' then
        if depth = 0 then failAhead .tooDeep
        skip
        closing
          (do
            let step (held : List (String × Json)) : Reader (List (String × Json)) := do
              let name ← name
              colon
              return insertField name (← value depth) held
            return .object (← fields step true (← fuel) []))
          closeObject
      else failAhead .noValue

/-- Passes over the rest of a list or an object of which something is read. -/
def skipRest (isList : Bool) (next : Reader Unit) : (fuel : Nat) → Reader Unit
  | 0 => failAhead .endOfValue
  | fuel + 1 => do
      let char ← peekToken (if isList then .endOfList else .endOfObject)
      if char = ',' then
        skip
        next
        skipRest isList next fuel
      else if char = (if isList then ']' else '}') then skip
      else failAhead (if isList then .noListComma else .noObjectComma)

/-- Passes over a field: its name, the colon and its value. -/
def skipField (next : Reader Unit) : Reader Unit := do
  if (← peekToken .endOfObject) = '"' then skip else failAhead .nameNotText
  skipQuoted (← fuel)
  colon
  next

/-- Passes over a document that nobody asks for. -/
def ignored : (fuel : Nat) → Reader Unit
  | 0 => failAhead .endOfValue
  | fuel + 1 => do
      let char ← peekToken .endOfValue
      if char = 'n' then
        skip
        word ['u', 'l', 'l']
      else if char = 't' then
        skip
        word ['r', 'u', 'e']
      else if char = 'f' then
        skip
        word ['a', 'l', 's', 'e']
      else if beginsNumber char then
        let _ ← numeral .badNumber
      else if char = '"' then
        skip
        skipQuoted fuel
      else if char = '[' then
        skip
        if (← peekToken .endOfList) = ']' then skip
        else
          ignored fuel
          skipRest true (ignored fuel) fuel
      else if char = '{' then
        skip
        if (← peekToken .endOfObject) = '}' then skip
        else
          skipField (ignored fuel)
          skipRest false (skipField (ignored fuel)) fuel
      else failAhead .noValue

/-- What stands ahead where something else was expected; lists and objects stay unread. -/
def foundAhead : Reader Found := do
  match ← peek? with
  | none => failAhead .noValue
  | some char =>
      if char = 'n' then
        skip
        word ['u', 'l', 'l']
        return .null
      else if char = 't' then
        skip
        word ['r', 'u', 'e']
        return .bool true
      else if char = 'f' then
        skip
        word ['a', 'l', 's', 'e']
        return .bool false
      else if beginsNumber char then return .number (← number)
      else if char = '"' then
        skip
        return .text (← quoted)
      else if char = '[' then return .list
      else if char = '{' then return .object
      else failAhead .noValue

/-- Fails for a value of another kind than expected. -/
def wrongKind {α : Type} (expected : String) : Reader α := do
  let found ← foundAhead
  fail (.wrongKind found expected)

end Reader

def parse (text : String) : Except Refusal Json :=
  Reader.onText (Reader.value Reader.depthLimit) text

end SealedDirectory.Json
