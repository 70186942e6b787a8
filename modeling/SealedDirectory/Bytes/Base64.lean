import SealedDirectory.Bytes.Basic

/-!
# Base64

The standard alphabet with padding.  Every byte string has exactly one written
form: padding is required, nothing may surround it, and the bits that a last
symbol does not use must be zero.  A reader therefore refuses every other text,
and says at which byte of the text it stopped.

The unpadded form, which encoded passwords use, shares the alphabet and the rule
about unused bits.
-/

namespace SealedDirectory.Base64

/-- Why a text is not a written form. -/
inductive Fault where
  /-- A byte outside the alphabet, or padding where none may stand. -/
  | invalidSymbol (place : Nat) (symbol : UInt8)
  /-- One symbol is left over, which carries less than a byte. -/
  | invalidLength (length : Nat)
  /-- The last symbol has unused bits that are not zero. -/
  | invalidLastSymbol (place : Nat) (symbol : UInt8)
  | invalidPadding
  deriving DecidableEq, Repr

def Fault.message : Fault → String
  | .invalidSymbol place symbol => s!"Invalid symbol {symbol.toNat}, offset {place}."
  | .invalidLength length => s!"Invalid input length: {length}"
  | .invalidLastSymbol place symbol => s!"Invalid last symbol {symbol.toNat}, offset {place}."
  | .invalidPadding => "Invalid padding"

def symbol (value : Nat) : Char :=
  if value < 26 then Char.ofNat (65 + value)
  else if value < 52 then Char.ofNat (71 + value)
  else if value < 62 then Char.ofNat (value - 4)
  else if value = 62 then '+'
  else '/'

/-- The six-bit number of a symbol, given as a byte of the text. -/
def value? (byte : UInt8) : Option Nat :=
  let code := byte.toNat
  if 65 ≤ code ∧ code ≤ 90 then some (code - 65)
  else if 97 ≤ code ∧ code ≤ 122 then some (code - 71)
  else if 48 ≤ code ∧ code ≤ 57 then some (code + 4)
  else if code = 43 then some 62
  else if code = 47 then some 63
  else none

def padding : UInt8 := 61

/-- The symbols of a byte string, three bytes to four symbols, with padding at the end. -/
def encodeChars : Bytes → List Char
  | [] => []
  | [first] =>
      [symbol (first.toNat / 4), symbol (first.toNat % 4 * 16), '=', '=']
  | [first, second] =>
      [symbol (first.toNat / 4), symbol (first.toNat % 4 * 16 + second.toNat / 16),
       symbol (second.toNat % 16 * 4), '=']
  | first :: second :: third :: rest =>
      symbol (first.toNat / 4) :: symbol (first.toNat % 4 * 16 + second.toNat / 16) ::
      symbol (second.toNat % 16 * 4 + third.toNat / 64) :: symbol (third.toNat % 64) ::
      encodeChars rest

/-- The written form of a byte string. -/
def encode (bytes : Bytes) : String :=
  String.ofList (encodeChars bytes)

def encodeUnpadded (bytes : Bytes) : String :=
  String.ofList ((encodeChars bytes).filter (· != '='))

/-- The three bytes of four six-bit numbers. -/
def group (first second third fourth : Nat) : Bytes :=
  [UInt8.ofNat (first * 4 + second / 16), UInt8.ofNat (second % 16 * 16 + third / 4),
   UInt8.ofNat (third % 4 * 64 + fourth)]

/-- The number of a symbol at a place of the text. -/
def valueAt (place : Nat) (byte : UInt8) : Except Fault Nat :=
  match value? byte with
  | some number => .ok number
  | none => .error (.invalidSymbol place byte)

/-- Reads the last symbols, at most four, that do not include padding, and closes the text. -/
def closing (place : Nat) (values : List Nat) (last : UInt8) (paddings : Nat) :
    Except Fault Bytes :=
  match values with
  | [] => .error (.invalidLength place)
  | [_] => .error (.invalidLength (place + 1))
  | [first, second] =>
      if paddings ≠ 2 then .error .invalidPadding
      else if second % 16 ≠ 0 then .error (.invalidLastSymbol (place + 1) last)
      else .ok ((group first second 0 0).take 1)
  | [first, second, third] =>
      if paddings ≠ 1 then .error .invalidPadding
      else if third % 4 ≠ 0 then .error (.invalidLastSymbol (place + 2) last)
      else .ok ((group first second third 0).take 2)
  | first :: second :: third :: fourth :: _ =>
      .ok (group first second third fourth)

/--
Reads the last group of a text.  Padding may begin only after two symbols, and
after it nothing but padding may follow; a symbol there is blamed on the first
padding sign.
-/
def decodeLast (place : Nat) (values : List Nat) (last : UInt8) (paddings : Nat) :
    Bytes → Except Fault Bytes
  | [] => closing place values last paddings
  | byte :: rest =>
      let here := place + values.length + paddings
      if byte = padding then
        if values.length + paddings < 2 then .error (.invalidSymbol here byte)
        else decodeLast place values last (paddings + 1) rest
      else if paddings ≠ 0 then
        .error (.invalidSymbol (place + values.length) padding)
      else do
        let number ← valueAt here byte
        decodeLast place (values ++ [number]) byte paddings rest

/-- Reads whole groups up to the last one, which is read apart. -/
def decodeGroups (place : Nat) : Bytes → Except Fault Bytes
  | first :: second :: third :: fourth :: fifth :: rest => do
      let a ← valueAt place first
      let b ← valueAt (place + 1) second
      let c ← valueAt (place + 2) third
      let d ← valueAt (place + 3) fourth
      let tail ← decodeGroups (place + 4) (fifth :: rest)
      return group a b c d ++ tail
  | [] => .ok []
  | bytes => decodeLast place [] 0 0 bytes

/-- A stray byte that leaves one symbol over at the very end is reported before all else. -/
def strayLast (bytes : Bytes) : Option Fault :=
  if bytes.length % 4 = 1 then
    match bytes.getLast? with
    | some byte =>
        if byte ≠ padding ∧ (value? byte).isNone then
          some (.invalidSymbol (bytes.length - 1) byte)
        else none
    | none => none
  else none

/-- Reads the written form of a byte string, given as the bytes of a text. -/
def decodeBytes (bytes : Bytes) : Except Fault Bytes :=
  match strayLast bytes with
  | some fault => .error fault
  | none => decodeGroups 0 bytes

/-- Reads the written form of a byte string. -/
def decode (text : String) : Except Fault Bytes :=
  decodeBytes (Bytes.ofText text)

/-- Reads the unpadded form, which like the padded one is unique. -/
def decodeUnpadded? (text : String) : Option Bytes :=
  let bytes := Bytes.ofText text
  if bytes.contains padding then none
  else
    let missing := (4 - bytes.length % 4) % 4
    match decodeBytes (bytes ++ List.replicate missing padding) with
    | .ok read => some read
    | .error _ => none

end SealedDirectory.Base64
