import SealedDirectory.Calendar.Moment
import SealedDirectory.Key.Envelope

/-!
# Time and chance

Whatever an operation takes from the clock or from chance comes from a source: an
endless supply of readings of the clock, identifiers, nonces, salts and keys, each
used from the front.  An operation is a function of its source, and nothing is
assumed about the supplies: the clock may step back and identifiers may repeat.
-/

namespace SealedDirectory

/-- Endless supplies of everything that is drawn. -/
structure Source where
  clock : Nat → Calendar.Moment
  uuid : Nat → Uuid
  nonce : Nat → Nonce
  salt : Nat → Bytes
  key : Nat → Key

/-- How much of each supply is used. -/
structure Drawn where
  clock : Nat := 0
  uuid : Nat := 0
  nonce : Nat := 0
  salt : Nat := 0
  key : Nat := 0
  deriving DecidableEq, Repr

namespace Source

/-- Bytes that depend on a seed, on what they are for, and on their place in the supply. -/
def bytesAt (seed : Bytes) (purpose : UInt8) (index : Nat) : Bytes :=
  Sha256.digest (seed ++ [purpose] ++ Bytes.bigEndian 8 index)

/-- The supplies that a seed expands to, with a clock that stands still. -/
def ofSeed (seed : Bytes) (now : Calendar.Moment) : Source :=
  { clock := fun _ => now
    uuid := fun index => Uuid.ofRandom (bytesAt seed 1 index)
    nonce := fun index => Nonce.ofRandom (bytesAt seed 2 index)
    salt := fun index => (bytesAt seed 3 index).take 16
    key := fun index => Key.ofRandom (bytesAt seed 4 index) }

end Source

end SealedDirectory
