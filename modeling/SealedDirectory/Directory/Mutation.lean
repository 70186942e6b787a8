import SealedDirectory.Directory.Versioned

/-!
# Changing a record

A caller changes a record by its identifier and the signature under which it saw it.
In this order:

1. the record is loaded, and its signature must be the expected one;
2. the caller's change is applied, and the record is made ready for writing;
3. the stamp is renewed with the time and a fresh signature;
4. the record is written over the row that still has the expected signature;
5. the new signature is registered, which fails if it was ever issued before;
6. the changes of watched columns are noted in the trail.

All of this happens inside a transaction of the caller, so a failure at any step
leaves no trace of the change.
-/

namespace SealedDirectory

structure Mutation (R : Type) where
  /-- The record after the change, as it is stored. -/
  record : R
  /-- The entries that were added to the trail. -/
  entries : List Entry

namespace Work

variable {R : Type} [Versioned R]

/-- The stored record of an identifier, which must exist. -/
def load (ring : KeyRing) (id : Id (Versioned.idKind R)) : Work R := do
  match ← ask fun tables => Versioned.find tables ring id with
  | some record => return record
  | none => throw (.notFound (Versioned.kind R) id.display)

/-- The fault of an expected signature that is not the one of the record. -/
def staleFault (id : Id (Versioned.idKind R)) (expected actual : Signature) : Fault :=
  .stale (Versioned.kind R) id.display expected actual

/-- The record with its stamp renewed now. -/
def restamped (before after : R) : Work R := do
  let time ← now
  let signature ← freshId .signature
  return Versioned.withStamp after
    (Stamp.renewed (Versioned.stamp before) (Versioned.stamp after) time signature)

/-- Changes the record of an identifier if its signature is the expected one. -/
def mutate (ring : KeyRing) (id : Id (Versioned.idKind R)) (expected : Signature)
    (change : R → Work R) : Work (Mutation R) := do
  let before ← load ring id
  let actual := (Versioned.stamp before).signature
  if actual ≠ expected then throw (staleFault id expected actual)
  let changed ← change before
  let after ← restamped before (Versioned.prepared ring changed)
  if !(← Versioned.overwrite ring after expected) then
    let current : R ← load ring id
    throw (staleFault id expected (Versioned.stamp current).signature)
  let stamp := Versioned.stamp after
  execute fun tables => tables.register stamp.signature (Versioned.kind R) stamp.changed
  let entries ← note before after
  return { record := after, entries }

end Work

end SealedDirectory
