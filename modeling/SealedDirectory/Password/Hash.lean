import SealedDirectory.Password.Argon2
import SealedDirectory.Password.Encoded

/-!
# Hashing and checking passwords

A password is stored as an encoded password with a fresh salt of sixteen bytes and a
tag of thirty-two.  A guess is checked under the version, the parameters and the salt
that the stored text itself names; whatever costs are in force for new passwords do
not matter.  An encoded password that names another algorithm, or costs that the
algorithm refuses, is matched by no guess.

The function that gives the tags is a parameter here; the directory takes Argon2 for it.
-/

namespace SealedDirectory.Password

open Argon2

/-- The number of bytes of a tag. -/
def tagLength : Nat := 32

def variantName : Variant → List Char
  | .dataDependent => "argon2d".toList
  | .dataIndependent => "argon2i".toList
  | .hybrid => "argon2id".toList

def variant? (name : List Char) : Option Variant :=
  [Variant.dataDependent, .dataIndependent, .hybrid].find? fun variant =>
    variantName variant = name

/-- The version of a number, the second one if none is given. -/
def version? : Option Nat → Option Version
  | none => some .second
  | some number => [Version.first, .second].find? fun version => version.code = number

/-- A function that gives the tag of a password under inputs. -/
abbrev TagFunction := Inputs → Bytes → Bytes

def parametersOf (costs : Costs) : List (List Char × List Char) :=
  [(['m'], Encoded.decimal costs.memory.toNat), (['t'], Encoded.decimal costs.time.toNat),
    (['p'], Encoded.decimal costs.lanes.toNat)]

/-- The password encoded under costs and a salt. -/
def encode (tagOf : TagFunction) (costs : Costs) (salt : Bytes) (password : String) :
    Encoded :=
  { algorithm := variantName .hybrid
    version := some Version.second.code
    parameters := parametersOf costs
    salt := some (Base64.encodeUnpadded salt).toList
    tag := some (tagOf
      { variant := .hybrid, version := .second, costs, salt, associated := [], tagLength }
      (Bytes.ofText password)) }

/-- The costs in force where an encoded password does not name them. -/
def usualCosts : Costs :=
  { memory := 19456, time := 2, lanes := 1 }

/-- What the parameters of an encoded password say. -/
structure Stated where
  costs : Costs
  associated : Bytes

/-- Decimal digits as a word of thirty-two bits. -/
def word? (value : List Char) : Option UInt32 :=
  match Encoded.readDecimal value with
  | .ok number => some (UInt32.ofNat number)
  | .error _ => none

/-- Bytes in Base64, at most so many. -/
def bytesWithin? (greatest : Nat) (value : List Char) : Option Bytes :=
  (Base64.decodeUnpadded? (String.ofList value)).filter fun bytes => bytes.length ≤ greatest

/-- Takes one parameter into account; an unknown one is refused. -/
def Stated.take? (stated : Stated) (entry : List Char × List Char) : Option Stated :=
  match entry with
  | (['m'], value) => do
      return { stated with costs := { stated.costs with memory := ← word? value } }
  | (['t'], value) => do
      return { stated with costs := { stated.costs with time := ← word? value } }
  | (['p'], value) => do
      return { stated with costs := { stated.costs with lanes := ← word? value } }
  | (name, value) =>
      if name = "keyid".toList then (bytesWithin? 8 value).map fun _ => stated
      else if name = "data".toList then
        (bytesWithin? 32 value).map fun associated => { stated with associated }
      else none

/-- What the parameters say, starting from the costs in force. -/
def stated? (usual : Costs) (parameters : List (List Char × List Char)) : Option Stated :=
  parameters.foldlM Stated.take? { costs := usual, associated := [] }

/-- The salt of an encoded password, at least eight bytes. -/
def salt? (salt : List Char) : Option Bytes :=
  (Base64.decodeUnpadded? (String.ofList salt)).filter fun bytes => 8 ≤ bytes.length

/-- The inputs under which an encoded password has its tag, and that tag. -/
def inputs? (usual : Costs) (encoded : Encoded) : Option (Inputs × Bytes) := do
  let salt ← encoded.salt
  let expected ← encoded.tag
  let stated ← stated? usual encoded.parameters
  if stated.costs.fault?.isSome then none
  let variant ← variant? encoded.algorithm
  let version ← version? encoded.version
  let salt ← salt? salt
  return ({ variant, version, costs := stated.costs, salt, associated := stated.associated,
            tagLength := expected.length }, expected)

/-- Whether a guess has the tag of an encoded password. -/
def matched (tagOf : TagFunction) (usual : Costs) (encoded : Encoded) (guess : String) : Bool :=
  match inputs? usual encoded with
  | none => false
  | some (inputs, expected) => tagOf inputs (Bytes.ofText guess) = expected

end SealedDirectory.Password
