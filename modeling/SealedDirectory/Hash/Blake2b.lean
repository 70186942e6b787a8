import SealedDirectory.Bytes.Basic

/-!
# BLAKE2b

The hash on which the password function is built: blocks of 128 bytes, a state
of eight 64-bit words, twelve rounds.  A digest has any length from 1 to 64
bytes, and the length asked for is part of what is hashed.
-/

namespace SealedDirectory.Blake2b

/-- The initialisation words: fractional parts of square roots of the first primes. -/
def initialWords : Array UInt64 := #[
    0x6a09e667f3bcc908, 0xbb67ae8584caa73b, 0x3c6ef372fe94f82b,
    0xa54ff53a5f1d36f1, 0x510e527fade682d1, 0x9b05688c2b3e6c1f,
    0x1f83d9abfb41bd6b, 0x5be0cd19137e2179]

/-- The order in which each of ten rounds takes the words of a block; then they repeat. -/
def wordOrder : Array (Array Nat) := #[
    #[0, 1, 2, 3, 4, 5, 6, 7, 8, 9, 10, 11, 12, 13, 14, 15],
    #[14, 10, 4, 8, 9, 15, 13, 6, 1, 12, 0, 2, 11, 7, 5, 3],
    #[11, 8, 12, 0, 5, 2, 15, 13, 10, 14, 3, 6, 7, 1, 9, 4],
    #[7, 9, 3, 1, 13, 12, 11, 14, 2, 6, 5, 10, 4, 0, 15, 8],
    #[9, 0, 5, 7, 2, 4, 10, 15, 14, 1, 11, 12, 6, 8, 3, 13],
    #[2, 12, 6, 10, 0, 11, 8, 3, 4, 13, 7, 5, 15, 14, 1, 9],
    #[12, 5, 1, 15, 14, 13, 4, 10, 0, 7, 6, 3, 9, 2, 8, 11],
    #[13, 11, 7, 14, 12, 1, 3, 9, 5, 0, 15, 4, 8, 6, 2, 10],
    #[6, 15, 14, 9, 11, 3, 0, 8, 12, 2, 13, 7, 1, 4, 10, 5],
    #[10, 2, 8, 4, 7, 6, 1, 5, 15, 11, 9, 14, 3, 12, 13, 0]]

/-- Rotation to the right by fewer than 64 places. -/
@[inline]
def rotateRight (word amount : UInt64) : UInt64 :=
  (word >>> amount) ||| (word <<< (64 - amount))

/-- Mixes two message words into four words of the working vector. -/
def mix (vector : Array UInt64) (a b c d : Nat) (x y : UInt64) : Array UInt64 :=
  let va := vector.getD a 0 + vector.getD b 0 + x
  let vd := rotateRight (vector.getD d 0 ^^^ va) 32
  let vc := vector.getD c 0 + vd
  let vb := rotateRight (vector.getD b 0 ^^^ vc) 24
  let va := va + vb + y
  let vd := rotateRight (vd ^^^ va) 16
  let vc := vc + vd
  let vb := rotateRight (vb ^^^ vc) 63
  (((vector.setIfInBounds a va).setIfInBounds b vb).setIfInBounds c vc).setIfInBounds d vd

/-- The columns and diagonals of the working vector in the order a round visits them. -/
def lines : List (Nat × Nat × Nat × Nat) :=
  [(0, 4, 8, 12), (1, 5, 9, 13), (2, 6, 10, 14), (3, 7, 11, 15),
   (0, 5, 10, 15), (1, 6, 11, 12), (2, 7, 8, 13), (3, 4, 9, 14)]

/-- One round: four columns, then four diagonals, two message words each. -/
def round (words : Array UInt64) (vector : Array UInt64) (index : Nat) : Array UInt64 :=
  let order := wordOrder.getD (index % 10) #[]
  let word (position : Nat) : UInt64 := words.getD (order.getD position 0) 0
  (lines.zipIdx).foldl (fun current (line, number) =>
    mix current line.1 line.2.1 line.2.2.1 line.2.2.2
      (word (2 * number)) (word (2 * number + 1))) vector

/-- The words of a block, least significant byte first. -/
def blockWords : Bytes → List UInt64
  | b0 :: b1 :: b2 :: b3 :: b4 :: b5 :: b6 :: b7 :: rest =>
      (b0.toUInt64 ||| (b1.toUInt64 <<< 8) ||| (b2.toUInt64 <<< 16) ||| (b3.toUInt64 <<< 24) |||
        (b4.toUInt64 <<< 32) ||| (b5.toUInt64 <<< 40) ||| (b6.toUInt64 <<< 48) |||
        (b7.toUInt64 <<< 56)) :: blockWords rest
  | _ => []

/-- The effect of a block, given how many bytes have been taken in with it. -/
def compress (state : Array UInt64) (block : Bytes) (taken : Nat) (last : Bool) :
    Array UInt64 :=
  let words := (blockWords block).toArray
  let vector := state ++ initialWords
  let vector := vector.setIfInBounds 12 (vector.getD 12 0 ^^^ UInt64.ofNat taken)
  let vector := if last then vector.setIfInBounds 14 (~~~ vector.getD 14 0) else vector
  let stirred := (List.range 12).foldl (round words) vector
  (Array.range 8).map fun index =>
    state.getD index 0 ^^^ stirred.getD index 0 ^^^ stirred.getD (index + 8) 0

/-- Absorbs a message; the last block is filled with zeros, and an empty message is one block. -/
def absorb (state : Array UInt64) (message : Bytes) (taken : Nat) : Array UInt64 :=
  if message.length ≤ 128 then
    compress state (message ++ List.replicate (128 - message.length) 0)
      (taken + message.length) true
  else
    absorb (compress state (message.take 128) (taken + 128) false)
      (message.drop 128) (taken + 128)
termination_by message.length
decreasing_by simp only [List.length_drop]; omega

/-- The digest of the given length, which is at most 64 bytes. -/
def digest (length : Nat) (message : Bytes) : Bytes :=
  let parameters : UInt64 := 0x01010000 ^^^ UInt64.ofNat length
  let start := initialWords.setIfInBounds 0 (initialWords.getD 0 0 ^^^ parameters)
  let words := absorb start message 0
  (words.toList.flatMap fun word => Bytes.littleEndian 8 word.toNat).take length

end SealedDirectory.Blake2b
