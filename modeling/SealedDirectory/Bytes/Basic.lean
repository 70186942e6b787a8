/-!
# Byte strings

Keys, nonces, digests and sealed values are byte strings.  They are lists, so
that framing is appending and unframing is `take` and `drop`; texts cross into
bytes only through their UTF-8 form.

Hexadecimal text is the form in which digests are stored and compared: two
lowercase digits for every byte, the high half first.
-/

namespace SealedDirectory

abbrev Bytes := List UInt8

namespace Bytes

def ofText (text : String) : Bytes :=
  text.toByteArray.data.toList

/-- The text whose UTF-8 form is given, if there is one. -/
def toText? (bytes : Bytes) : Option String :=
  String.fromUTF8? (ByteArray.mk bytes.toArray)

/-- The lowercase hexadecimal digit of a number below sixteen. -/
def hexDigit (value : Nat) : Char :=
  if value < 10 then Char.ofNat (48 + value) else Char.ofNat (87 + value)

/-- The value of a hexadecimal digit in either case. -/
def hexValue? (digit : Char) : Option Nat :=
  let code := digit.toNat
  if 48 ≤ code ∧ code ≤ 57 then some (code - 48)
  else if 97 ≤ code ∧ code ≤ 102 then some (code - 87)
  else if 65 ≤ code ∧ code ≤ 70 then some (code - 55)
  else none

def hexPair (byte : UInt8) : List Char :=
  [hexDigit (byte.toNat / 16), hexDigit (byte.toNat % 16)]

def toHex (bytes : Bytes) : String :=
  String.ofList (bytes.flatMap hexPair)

/-- Reads pairs of hexadecimal digits; an odd count or a foreign character is refused. -/
def ofHexDigits? : List Char → Option Bytes
  | [] => some []
  | [_] => none
  | high :: low :: rest => do
      let upper ← hexValue? high
      let lower ← hexValue? low
      let tail ← ofHexDigits? rest
      return UInt8.ofNat (16 * upper + lower) :: tail

/-- The bytes that a hexadecimal text writes down. -/
def ofHex? (text : String) : Option Bytes :=
  ofHexDigits? text.toList

/-- A number in a fixed count of bytes, the least significant first. -/
def littleEndian : (count : Nat) → Nat → Bytes
  | 0, _ => []
  | count + 1, value => UInt8.ofNat (value % 256) :: littleEndian count (value / 256)

/-- A number in a fixed count of bytes, the most significant first. -/
def bigEndian (count value : Nat) : Bytes :=
  (littleEndian count value).reverse

/-- The number that bytes denote with the most significant first. -/
def toNat (bytes : Bytes) : Nat :=
  bytes.foldl (fun total byte => total * 256 + byte.toNat) 0

/-- Bytewise exclusive or, as long as the shorter argument. -/
def xor (left right : Bytes) : Bytes :=
  List.zipWith (· ^^^ ·) left right

@[simp]
theorem littleEndian_length (count value : Nat) :
    (littleEndian count value).length = count := by
  induction count generalizing value with
  | zero => rfl
  | succ count ih => simp [littleEndian, ih]

@[simp]
theorem bigEndian_length (count value : Nat) :
    (bigEndian count value).length = count := by
  simp [bigEndian]

@[simp]
theorem xor_length (left right : Bytes) :
    (xor left right).length = min left.length right.length := by
  simp [xor]

/-- Adding the same mask twice gives back what it covered. -/
theorem xor_xor_cancel (bytes mask : Bytes) (covered : bytes.length ≤ mask.length) :
    xor (xor bytes mask) mask = bytes := by
  induction bytes generalizing mask with
  | nil => simp [xor]
  | cons byte rest ih =>
      cases mask with
      | nil => simp at covered
      | cons key keys =>
          have shorter : rest.length ≤ keys.length := by simpa using covered
          have tail := ih keys shorter
          simp only [xor, List.zipWith_cons_cons] at tail ⊢
          rw [tail, UInt8.xor_assoc, UInt8.xor_self, UInt8.xor_zero]

end Bytes

end SealedDirectory
