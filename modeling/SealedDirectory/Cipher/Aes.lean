import SealedDirectory.Bytes.Basic

/-!
# AES with 256-bit keys

Only the forward direction of the block cipher is needed: the counter mode that
seals values uses it for sealing and opening alike.  The substitution table is
not written out but computed from what defines it, inversion in the field of 256
elements followed by an affine map.
-/

namespace SealedDirectory.Aes

def double (byte : UInt8) : UInt8 :=
  if byte ≥ 0x80 then (byte <<< 1) ^^^ 0x1b else byte <<< 1

/-- Multiplication in the field, one bit of the left factor at a time. -/
def multiply (left right : UInt8) : UInt8 :=
  ((List.range 8).foldl
    (fun (product, factor) bit =>
      (if (left >>> UInt8.ofNat bit) &&& 1 = 1 then product ^^^ factor else product,
       double factor))
    ((0 : UInt8), right)).1

/-- The multiplicative inverse, with zero for zero, as the 254th power. -/
def inverse (byte : UInt8) : UInt8 :=
  (List.range 6).foldl
    (fun power _ => multiply (multiply power power) byte)
    byte |> fun power => multiply power power

/-- Rotation of a byte to the left. -/
def rotateLeft (byte amount : UInt8) : UInt8 :=
  (byte <<< amount) ||| (byte >>> (8 - amount))

def substituted (byte : UInt8) : UInt8 :=
  let value := inverse byte
  value ^^^ rotateLeft value 1 ^^^ rotateLeft value 2 ^^^ rotateLeft value 3 ^^^
    rotateLeft value 4 ^^^ 0x63

/-- The substitution of every byte, computed once. -/
def substitution : Array UInt8 :=
  (Array.range 256).map fun value => substituted (UInt8.ofNat value)

/-- The substitution of one byte by look-up. -/
def substitute (byte : UInt8) : UInt8 :=
  substitution.getD byte.toNat 0

/-- Four bytes: a column of the state or a word of the key schedule. -/
structure Column where
  first : UInt8
  second : UInt8
  third : UInt8
  fourth : UInt8
  deriving DecidableEq, Inhabited

def Column.xor (left right : Column) : Column :=
  ⟨left.first ^^^ right.first, left.second ^^^ right.second,
   left.third ^^^ right.third, left.fourth ^^^ right.fourth⟩

/-- Applies the substitution to each byte of a column. -/
def Column.substitute (column : Column) : Column :=
  ⟨Aes.substitute column.first, Aes.substitute column.second,
   Aes.substitute column.third, Aes.substitute column.fourth⟩

/-- Moves the first byte of a key word to its end. -/
def Column.rotate (column : Column) : Column :=
  ⟨column.second, column.third, column.fourth, column.first⟩

/-- Mixes the bytes of a column by the circulant matrix 2, 3, 1, 1. -/
def Column.mix (column : Column) : Column :=
  let ⟨a, b, c, d⟩ := column
  ⟨double a ^^^ (double b ^^^ b) ^^^ c ^^^ d,
   a ^^^ double b ^^^ (double c ^^^ c) ^^^ d,
   a ^^^ b ^^^ double c ^^^ (double d ^^^ d),
   (double a ^^^ a) ^^^ b ^^^ c ^^^ double d⟩

/-- The columns that sixteen bytes fill in order. -/
def columns : Bytes → List Column
  | first :: second :: third :: fourth :: rest => ⟨first, second, third, fourth⟩ :: columns rest
  | _ => []

/-- The state of the cipher: four columns. -/
structure State where
  c0 : Column
  c1 : Column
  c2 : Column
  c3 : Column
  deriving DecidableEq, Inhabited

/-- The state that a block fills; missing bytes count as zero. -/
def State.ofBytes (block : Bytes) : State :=
  let filled := columns block
  ⟨filled.getD 0 default, filled.getD 1 default, filled.getD 2 default, filled.getD 3 default⟩

/-- The bytes of a state, column after column. -/
def State.toBytes (state : State) : Bytes :=
  [state.c0, state.c1, state.c2, state.c3].flatMap fun column =>
    [column.first, column.second, column.third, column.fourth]

def State.xor (left right : State) : State :=
  ⟨left.c0.xor right.c0, left.c1.xor right.c1, left.c2.xor right.c2, left.c3.xor right.c3⟩

/-- Substitutes every byte and shifts the rows by their index. -/
def State.substituteAndShift (state : State) : State :=
  let s0 := state.c0.substitute
  let s1 := state.c1.substitute
  let s2 := state.c2.substitute
  let s3 := state.c3.substitute
  ⟨⟨s0.first, s1.second, s2.third, s3.fourth⟩, ⟨s1.first, s2.second, s3.third, s0.fourth⟩,
   ⟨s2.first, s3.second, s0.third, s1.fourth⟩, ⟨s3.first, s0.second, s1.third, s2.fourth⟩⟩

def State.mix (state : State) : State :=
  ⟨state.c0.mix, state.c1.mix, state.c2.mix, state.c3.mix⟩

/-- The next word of the key schedule from the words so far. -/
def nextWord (words : Array Column) (index : Nat) : Column :=
  let previous := words.getD (index - 1) default
  let changed :=
    if index % 8 = 0 then
      let constant := (List.range (index / 8 - 1)).foldl (fun value _ => double value) 1
      previous.rotate.substitute.xor ⟨constant, 0, 0, 0⟩
    else if index % 8 = 4 then previous.substitute
    else previous
  (words.getD (index - 8) default).xor changed

/-- The sixty words into which a key of 32 bytes expands. -/
def expandKey (key : Bytes) : Array Column :=
  (List.range' 8 52).foldl (fun words index => words.push (nextWord words index))
    (columns key).toArray

def roundKey (words : Array Column) (round : Nat) : State :=
  ⟨words.getD (4 * round) default, words.getD (4 * round + 1) default,
   words.getD (4 * round + 2) default, words.getD (4 * round + 3) default⟩

/-- Encrypts one block of sixteen bytes under an expanded key. -/
def encryptBlock (words : Array Column) (block : Bytes) : Bytes :=
  let start := (State.ofBytes block).xor (roundKey words 0)
  let middle := (List.range' 1 13).foldl
    (fun state round => state.substituteAndShift.mix.xor (roundKey words round)) start
  (middle.substituteAndShift.xor (roundKey words 14)).toBytes

@[simp]
theorem encryptBlock_length (words : Array Column) (block : Bytes) :
    (encryptBlock words block).length = 16 := by
  simp [encryptBlock, State.toBytes]

end SealedDirectory.Aes
