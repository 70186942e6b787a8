import SealedDirectory.Bytes.Basic

/-!
# SHA-256

The digest that stands beside every sealed value and that the uniqueness rules
of the user table compare.  The message is padded to whole blocks of 64 bytes;
each block expands into a schedule of 64 words and stirs the eight words of the
chaining state once.
-/

namespace SealedDirectory.Sha256

structure State where
  a : UInt32
  b : UInt32
  c : UInt32
  d : UInt32
  e : UInt32
  f : UInt32
  g : UInt32
  h : UInt32
  deriving DecidableEq

/-- The state before the first block: fractional parts of square roots of the first primes. -/
def initial : State :=
  ⟨0x6a09e667, 0xbb67ae85, 0x3c6ef372, 0xa54ff53a,
   0x510e527f, 0x9b05688c, 0x1f83d9ab, 0x5be0cd19⟩

/-- One constant a round: fractional parts of cube roots of the first 64 primes. -/
def roundConstants : Array UInt32 := #[
    0x428a2f98, 0x71374491, 0xb5c0fbcf, 0xe9b5dba5, 0x3956c25b, 0x59f111f1,
    0x923f82a4, 0xab1c5ed5, 0xd807aa98, 0x12835b01, 0x243185be, 0x550c7dc3,
    0x72be5d74, 0x80deb1fe, 0x9bdc06a7, 0xc19bf174, 0xe49b69c1, 0xefbe4786,
    0x0fc19dc6, 0x240ca1cc, 0x2de92c6f, 0x4a7484aa, 0x5cb0a9dc, 0x76f988da,
    0x983e5152, 0xa831c66d, 0xb00327c8, 0xbf597fc7, 0xc6e00bf3, 0xd5a79147,
    0x06ca6351, 0x14292967, 0x27b70a85, 0x2e1b2138, 0x4d2c6dfc, 0x53380d13,
    0x650a7354, 0x766a0abb, 0x81c2c92e, 0x92722c85, 0xa2bfe8a1, 0xa81a664b,
    0xc24b8b70, 0xc76c51a3, 0xd192e819, 0xd6990624, 0xf40e3585, 0x106aa070,
    0x19a4c116, 0x1e376c08, 0x2748774c, 0x34b0bcb5, 0x391c0cb3, 0x4ed8aa4a,
    0x5b9cca4f, 0x682e6ff3, 0x748f82ee, 0x78a5636f, 0x84c87814, 0x8cc70208,
    0x90befffa, 0xa4506ceb, 0xbef9a3f7, 0xc67178f2]

/-- Rotation to the right by fewer than 32 places. -/
@[inline]
def rotateRight (word amount : UInt32) : UInt32 :=
  (word >>> amount) ||| (word <<< (32 - amount))

/-- The sixteen words of a block, most significant byte first. -/
def blockWords : Bytes → List UInt32
  | first :: second :: third :: fourth :: rest =>
      ((first.toUInt32 <<< 24) ||| (second.toUInt32 <<< 16) |||
        (third.toUInt32 <<< 8) ||| fourth.toUInt32) :: blockWords rest
  | _ => []

/-- The next word of the schedule from the words so far. -/
def nextWord (words : Array UInt32) (index : Nat) : UInt32 :=
  let early := words.getD (index - 15) 0
  let late := words.getD (index - 2) 0
  let small := rotateRight early 7 ^^^ rotateRight early 18 ^^^ (early >>> 3)
  let large := rotateRight late 17 ^^^ rotateRight late 19 ^^^ (late >>> 10)
  words.getD (index - 16) 0 + small + words.getD (index - 7) 0 + large

/-- The 64 words of a block's schedule. -/
def schedule (block : Bytes) : Array UInt32 :=
  (List.range' 16 48).foldl (fun words index => words.push (nextWord words index))
    (blockWords block).toArray

def round (state : State) (word : UInt32) : State :=
  let sumE := rotateRight state.e 6 ^^^ rotateRight state.e 11 ^^^ rotateRight state.e 25
  let choice := (state.e &&& state.f) ^^^ ((~~~ state.e) &&& state.g)
  let first := state.h + sumE + choice + word
  let sumA := rotateRight state.a 2 ^^^ rotateRight state.a 13 ^^^ rotateRight state.a 22
  let majority := (state.a &&& state.b) ^^^ (state.a &&& state.c) ^^^ (state.b &&& state.c)
  { a := first + (sumA + majority), b := state.a, c := state.b, d := state.c
    e := state.d + first, f := state.e, g := state.f, h := state.g }

/-- Wordwise sum, by which a block's result joins the state it started from. -/
def State.add (left right : State) : State :=
  ⟨left.a + right.a, left.b + right.b, left.c + right.c, left.d + right.d,
   left.e + right.e, left.f + right.f, left.g + right.g, left.h + right.h⟩

/-- The effect of one block of 64 bytes. -/
def compress (state : State) (block : Bytes) : State :=
  let words := schedule block
  let stirred := (List.range 64).foldl
    (fun current index =>
      round current (roundConstants.getD index 0 + words.getD index 0)) state
  state.add stirred

/-- The message with a single one bit, zeros, and its length in bits, in whole blocks. -/
def pad (message : Bytes) : Bytes :=
  let zeros := (119 - message.length % 64) % 64
  message ++ 0x80 :: (List.replicate zeros 0 ++ Bytes.bigEndian 8 (8 * message.length))

/-- Absorbs a padded message block by block. -/
def absorb (state : State) (message : Bytes) : State :=
  if message.length < 64 then state
  else absorb (compress state (message.take 64)) (message.drop 64)
termination_by message.length
decreasing_by simp only [List.length_drop]; omega

/-- The words of the state in order. -/
def State.words (state : State) : List UInt32 :=
  [state.a, state.b, state.c, state.d, state.e, state.f, state.g, state.h]

/-- The 32 bytes of the digest of a message. -/
def digest (message : Bytes) : Bytes :=
  (absorb initial (pad message)).words.flatMap fun word => Bytes.bigEndian 4 word.toNat

@[simp]
theorem digest_length (message : Bytes) : (digest message).length = 32 := by
  simp [digest, State.words]

end SealedDirectory.Sha256
