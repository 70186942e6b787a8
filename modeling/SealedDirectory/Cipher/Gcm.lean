import SealedDirectory.Cipher.Aes

/-!
# Galois/counter mode

Authenticated encryption of a text under a key of 32 bytes and a nonce of 12.
The cipher applied to a running counter gives a stream that masks the text, and a
polynomial in the masked text, evaluated at a secret point and masked in turn,
gives a tag of 16 bytes that is appended.  Opening recomputes the tag from what
it is given and removes the mask only when the two tags agree.

Since the tag is a function of the masked text, a text has exactly one sealed
form under a key and a nonce, and nothing else opens to it.
-/

namespace SealedDirectory.Gcm

/-- The number of bytes of a nonce. -/
def nonceLength : Nat := 12

/-- The number of bytes of a tag. -/
def tagLength : Nat := 16

/-- The block that a number below 2^128 denotes. -/
def blockOfNat (value : Nat) : Bytes := Bytes.bigEndian 16 value

/-- Halving in the field, whose coefficients run from the most significant bit down. -/
def halve (value : Nat) : Nat :=
  if value % 2 = 1 then (value / 2) ^^^ (0xe1 <<< 120) else value / 2

/-- Multiplication in the field of 2^128 elements. -/
def multiply (left right : Nat) : Nat :=
  ((List.range 128).foldl
    (fun (product, factor) index =>
      (if left.testBit (127 - index) then product ^^^ factor else product, halve factor))
    (0, right)).1

/-- The blocks of a byte string as numbers, the last one filled with zeros. -/
def blocks (bytes : Bytes) : List Nat :=
  match bytes with
  | [] => []
  | first :: rest =>
      let block := (first :: rest).take 16
      Bytes.toNat (block ++ List.replicate (16 - block.length) 0) ::
        blocks ((first :: rest).drop 16)
termination_by bytes.length
decreasing_by simp only [List.length_drop, List.length_cons]; omega

/-- The polynomial of the masked text and its length at the secret point. -/
def hash (point : Nat) (masked : Bytes) : Nat :=
  (blocks masked ++ [8 * masked.length]).foldl
    (fun total block => multiply (total ^^^ block) point) 0

def counterBlock (nonce : Bytes) (counter : Nat) : Bytes :=
  nonce ++ Bytes.bigEndian 4 (counter % 4294967296)

/-- The mask: as many blocks as are asked for, from the second counter on. -/
def stream (words : Array Aes.Column) (nonce : Bytes) (counter : Nat) :
    (count : Nat) → Bytes
  | 0 => []
  | count + 1 =>
      Aes.encryptBlock words (counterBlock nonce counter) ++
        stream words nonce (counter + 1) count

/-- The mask of a text of the given length. -/
def mask (words : Array Aes.Column) (nonce : Bytes) (length : Nat) : Bytes :=
  stream words nonce 2 ((length + 15) / 16)

def tag (words : Array Aes.Column) (nonce masked : Bytes) : Bytes :=
  let point := Bytes.toNat (Aes.encryptBlock words (blockOfNat 0))
  Bytes.xor (blockOfNat (hash point masked))
    (Aes.encryptBlock words (counterBlock nonce 1))

/-- The sealed form of a text: its masked bytes and their tag. -/
def sealed (key nonce text : Bytes) : Bytes :=
  let words := Aes.expandKey key
  let masked := Bytes.xor text (mask words nonce text.length)
  masked ++ tag words nonce masked

/-- Opens a sealed form, or refuses it when its tag is not the one of its masked bytes. -/
def opened? (key nonce given : Bytes) : Option Bytes :=
  if given.length < tagLength then none
  else
    let words := Aes.expandKey key
    let masked := given.take (given.length - tagLength)
    if given.drop (given.length - tagLength) = tag words nonce masked then
      some (Bytes.xor masked (mask words nonce masked.length))
    else none

end SealedDirectory.Gcm
