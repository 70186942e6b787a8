import SealedDirectory.Hash.Blake2b

/-!
# Argon2

The memory-hard function under stored passwords, in its three variants and two
versions.  A first hash of all inputs seeds the first two blocks of every lane;
each pass then fills the lanes slice by slice, every block from its predecessor
and from one more block whose place is drawn either from the data (variant `d`)
or from a stream that does not depend on it (variant `i`); variant `id` begins
independently and goes on by the data.
-/

namespace SealedDirectory.Argon2

/-- How the place of the second input of a block is drawn. -/
inductive Variant where
  | dataDependent
  | dataIndependent
  | hybrid
  deriving DecidableEq, Repr

/-- The number of a variant in the first hash. -/
def Variant.code : Variant → Nat
  | .dataDependent => 0
  | .dataIndependent => 1
  | .hybrid => 2

/-- The two versions; the later one keeps what a block held on later passes. -/
inductive Version where
  | first
  | second
  deriving DecidableEq, Repr

/-- The number of a version in the first hash. -/
def Version.code : Version → Nat
  | .first => 0x10
  | .second => 0x13

structure Costs where
  memory : UInt32
  time : UInt32
  lanes : UInt32
  deriving DecidableEq, Repr

inductive CostFault where
  | memoryTooSmall
  | timeTooSmall
  | tooFewLanes
  | tooManyLanes
  deriving DecidableEq, Repr

def CostFault.message : CostFault → String
  | .memoryTooSmall => "memory cost is too small"
  | .timeTooSmall => "time cost is too small"
  | .tooFewLanes => "not enough threads"
  | .tooManyLanes => "too many threads"

/-- The first reason to refuse costs, if there is one. -/
def Costs.fault? (costs : Costs) : Option CostFault :=
  if costs.memory < 8 then some .memoryTooSmall
  else if costs.memory < costs.lanes * 8 then some .memoryTooSmall
  else if costs.time < 1 then some .timeTooSmall
  else if costs.lanes < 1 then some .tooFewLanes
  else if costs.lanes > 0xffffff then some .tooManyLanes
  else none

/-- Everything that a tag depends on, apart from the password. -/
structure Inputs where
  variant : Variant
  version : Version
  costs : Costs
  salt : Bytes
  associated : Bytes
  tagLength : Nat
  deriving DecidableEq, Repr

/-- A byte string behind its length in four bytes. -/
def withLength (bytes : Bytes) : Bytes :=
  Bytes.littleEndian 4 bytes.length ++ bytes

/-- The hash of any length: short ones directly, long ones as a chain of half digests. -/
def longHash (length : Nat) (message : Bytes) : Bytes :=
  let input := Bytes.littleEndian 4 length ++ message
  if length ≤ 64 then Blake2b.digest length input
  else
    let links := (length + 31) / 32 - 2
    let first := Blake2b.digest 64 input
    let (halves, last) := (List.range (links - 1)).foldl
      (fun (halves, link) _ =>
        let next := Blake2b.digest 64 link
        (halves ++ next.take 32, next))
      (first.take 32, first)
    halves ++ Blake2b.digest (length - 32 * links) last

def firstHash (inputs : Inputs) (password : Bytes) : Bytes :=
  let numbers := [inputs.costs.lanes.toNat, inputs.tagLength, inputs.costs.memory.toNat,
    inputs.costs.time.toNat, inputs.version.code, inputs.variant.code]
  Blake2b.digest 64 <|
    numbers.flatMap (Bytes.littleEndian 4) ++ withLength password ++ withLength inputs.salt ++
      withLength [] ++ withLength inputs.associated

abbrev Block := Array UInt64

def zeroBlock : Block := Array.replicate 128 0

def Block.xor (left right : Block) : Block :=
  Array.zipWith (· ^^^ ·) left right

def Block.ofBytes (bytes : Bytes) : Block :=
  (Blake2b.blockWords bytes).toArray

def Block.toBytes (block : Block) : Bytes :=
  block.toList.flatMap fun word => Bytes.littleEndian 8 word.toNat

/-- Four words of a block under permutation. -/
structure Quad where
  a : UInt64
  b : UInt64
  c : UInt64
  d : UInt64

/-- A sum to which twice the product of the lower halves is added. -/
@[inline]
def hardSum (left right : UInt64) : UInt64 :=
  left + right + 2 * (left &&& 0xffffffff) * (right &&& 0xffffffff)

@[inline]
def mix (a b c d : UInt64) : Quad :=
  let a := hardSum a b
  let d := Blake2b.rotateRight (d ^^^ a) 32
  let c := hardSum c d
  let b := Blake2b.rotateRight (b ^^^ c) 24
  let a := hardSum a b
  let d := Blake2b.rotateRight (d ^^^ a) 16
  let c := hardSum c d
  let b := Blake2b.rotateRight (b ^^^ c) 63
  ⟨a, b, c, d⟩

/-- Mixes the words at four places of a block. -/
@[inline]
def mixAt (block : Block) (a b c d : Nat) : Block :=
  let mixed := mix (block.getD a 0) (block.getD b 0) (block.getD c 0) (block.getD d 0)
  (((block.setIfInBounds a mixed.a).setIfInBounds b mixed.b).setIfInBounds c
    mixed.c).setIfInBounds d mixed.d

/-- Permutes the sixteen words of a block whose places are given pairwise. -/
def permute (block : Block) (start step : Nat) : Block :=
  let place (index : Nat) : Nat := start + index / 2 * step + index % 2
  let block := mixAt block (place 0) (place 4) (place 8) (place 12)
  let block := mixAt block (place 1) (place 5) (place 9) (place 13)
  let block := mixAt block (place 2) (place 6) (place 10) (place 14)
  let block := mixAt block (place 3) (place 7) (place 11) (place 15)
  let block := mixAt block (place 0) (place 5) (place 10) (place 15)
  let block := mixAt block (place 1) (place 6) (place 11) (place 12)
  let block := mixAt block (place 2) (place 7) (place 8) (place 13)
  mixAt block (place 3) (place 4) (place 9) (place 14)

/-- The compression of two blocks: rows, then columns, and the input again. -/
def compress (left right : Block) : Block :=
  let both := left.xor right
  let rows := (List.range 8).foldl (fun block row => permute block (16 * row) 2) both
  let columns := (List.range 8).foldl (fun block column => permute block (2 * column) 16) rows
  columns.xor both

structure Layout where
  lanes : Nat
  /-- Blocks of a lane in one of its four slices. -/
  segment : Nat
  passes : Nat

def Layout.laneLength (layout : Layout) : Nat := 4 * layout.segment

def Costs.layout (costs : Costs) : Layout :=
  { lanes := costs.lanes.toNat
    segment := costs.memory.toNat / (4 * costs.lanes.toNat)
    passes := costs.time.toNat }

/-- A place in the order in which blocks are filled. -/
structure Place where
  pass : Nat
  slice : Nat
  lane : Nat
  index : Nat

/-- Whether the blocks of a slice draw their second input independently of the data. -/
def Variant.independentAt (variant : Variant) (pass slice : Nat) : Bool :=
  match variant with
  | .dataDependent => false
  | .dataIndependent => true
  | .hybrid => pass = 0 && slice < 2

/-- The words that choose second inputs in a slice, a block of 128 for each counter. -/
def addressBlock (inputs : Inputs) (layout : Layout) (place : Place) (counter : Nat) : Block :=
  let seed : Block :=
    ([place.pass, place.lane, place.slice, layout.lanes * layout.laneLength, layout.passes,
      inputs.variant.code, counter].map UInt64.ofNat).toArray ++ Array.replicate 121 0
  compress zeroBlock (compress zeroBlock seed)

/-- The lane and index of the second input that a drawn word stands for. -/
def reference (layout : Layout) (place : Place) (drawn : UInt64) : Nat × Nat :=
  let low := drawn.toNat % 4294967296
  let high := drawn.toNat / 4294967296
  let lane := if place.pass = 0 ∧ place.slice = 0 then place.lane else high % layout.lanes
  let finished := if place.pass = 0 then place.slice * layout.segment
    else layout.laneLength - layout.segment
  let area := if lane = place.lane then finished + place.index - 1
    else if place.index = 0 then finished - 1 else finished
  let squared := low * low / 4294967296
  let back := area * squared / 4294967296
  let start := if place.pass = 0 ∨ place.slice = 3 then 0 else (place.slice + 1) * layout.segment
  (lane, (start + area - 1 - back) % layout.laneLength)

/-- Fills the block at a place; `addresses` holds the independent draws of its slice. -/
def fillBlock (inputs : Inputs) (layout : Layout) (addresses : Array Block)
    (memory : Array Block) (place : Place) : Array Block :=
  let length := layout.laneLength
  let column := place.slice * layout.segment + place.index
  let here := place.lane * length + column
  let before := place.lane * length + (column + length - 1) % length
  let previous := memory.getD before zeroBlock
  let drawn :=
    if inputs.variant.independentAt place.pass place.slice then
      (addresses.getD (place.index / 128) zeroBlock).getD (place.index % 128) 0
    else previous.getD 0 0
  let (lane, index) := reference layout place drawn
  let filled := compress previous (memory.getD (lane * length + index) zeroBlock)
  let kept := place.pass ≠ 0 ∧ inputs.version = .second
  let held := memory.getD here zeroBlock
  memory.setIfInBounds here (if kept then filled.xor held else filled)

def fillSegment (inputs : Inputs) (layout : Layout) (memory : Array Block)
    (pass slice lane : Nat) : Array Block :=
  let addresses : Array Block :=
    if inputs.variant.independentAt pass slice then
      (Array.range ((layout.segment + 127) / 128)).map fun counter =>
        addressBlock inputs layout ⟨pass, slice, lane, 0⟩ (counter + 1)
    else #[]
  let from_ := if pass = 0 ∧ slice = 0 then 2 else 0
  (List.range' from_ (layout.segment - from_)).foldl
    (fun current index => fillBlock inputs layout addresses current ⟨pass, slice, lane, index⟩)
    memory

/-- The memory before the first pass: two seeded blocks at the start of every lane. -/
def seeded (layout : Layout) (seed : Bytes) : Array Block :=
  let block (lane index : Nat) : Block :=
    Block.ofBytes <| longHash 1024 <|
      seed ++ Bytes.littleEndian 4 index ++ Bytes.littleEndian 4 lane
  (List.range layout.lanes).foldl
    (fun memory lane =>
      (memory.setIfInBounds (lane * layout.laneLength) (block lane 0)).setIfInBounds
        (lane * layout.laneLength + 1) (block lane 1))
    (Array.replicate (layout.lanes * layout.laneLength) zeroBlock)

def filled (inputs : Inputs) (layout : Layout) (memory : Array Block) : Array Block :=
  (List.range layout.passes).foldl
    (fun memory pass => (List.range 4).foldl
      (fun memory slice => (List.range layout.lanes).foldl
        (fun memory lane => fillSegment inputs layout memory pass slice lane) memory) memory)
    memory

def tag (inputs : Inputs) (password : Bytes) : Bytes :=
  let layout := inputs.costs.layout
  let memory := filled inputs layout (seeded layout (firstHash inputs password))
  let last := (List.range layout.lanes).foldl
    (fun total lane =>
      total.xor (memory.getD (lane * layout.laneLength + layout.laneLength - 1) zeroBlock))
    zeroBlock
  longHash inputs.tagLength last.toBytes

end SealedDirectory.Argon2
