import SealedDirectory.Trail.Watch
import SealedDirectory.Work.Session

/-!
# Versioned records

Organizations and users are changed in one and the same way, which needs to know of a
kind of records only how a record is found, which columns of it are watched, how it
is made ready for writing, and how it is written over the row that still has an
expected signature.
-/

namespace SealedDirectory

/-- Kinds of records that are changed under the guard of their signature. -/
class Versioned (R : Type) where
  idKind : IdKind
  kind : RecordKind
  id : R → Id idKind
  stamp : R → Stamp
  withStamp : R → Stamp → R
  watched : List (Watch R)
  /-- The record as it is to be written with a key ring. -/
  prepared : KeyRing → R → R
  find : Tables → KeyRing → Id idKind → Except Fault (Option R)
  /-- Writes a record over the row with an expected signature; gives whether there was one. -/
  overwrite : KeyRing → R → Signature → Work Bool

instance : Versioned Org where
  idKind := .org
  kind := .org
  id := Org.id
  stamp := Org.stamp
  withStamp := fun org stamp => { org with stamp }
  watched := Org.watched
  prepared := fun _ org => org
  find := fun tables _ id => tables.org? id
  overwrite := fun _ org expected => Work.answer fun tables => tables.updateOrg org expected

namespace User

/-- Seals the private texts of a user under the current key, each with a nonce of its own. -/
def sealTexts (ring : KeyRing) (user : User) : Work SealedTexts := do
  if user.keyVersion ≠ ring.current then
    throw (.sealing (.notCurrent user.id user.keyVersion ring.current))
  let enclosed (text : String) : Work SealedField := do
    return SealedField.enclose ring.currentKey ring.current (← Work.freshNonce) text
  return {
    displayName := ← enclosed user.displayName
    publicKey := ← enclosed user.publicKey
    email := ← enclosed user.email }

/-- The user as it is to be written: under the current version. -/
def underCurrent (ring : KeyRing) (user : User) : User :=
  { user with keyVersion := ring.current }

def insert (ring : KeyRing) (user : User) : Work Unit := do
  let texts ← user.sealTexts ring
  Work.execute fun tables => tables.insertUser (UserRow.ofUser user texts)

/-- Writes a user over the row with an expected signature. -/
def overwrite (ring : KeyRing) (user : User) (expected : Signature) : Work Bool := do
  let texts ← user.sealTexts ring
  Work.answer fun tables => tables.updateUser user texts expected

end User

instance : Versioned User where
  idKind := .user
  kind := .user
  id := User.id
  stamp := User.stamp
  withStamp := fun user stamp => { user with stamp }
  watched := User.watched
  prepared := User.underCurrent
  find := Tables.user?
  overwrite := User.overwrite

namespace Work

variable {R : Type} [Versioned R]

/-- Notes the change of one column between two states of a record at a time. -/
def noteChange (before after : R) (time : Int) (change : String × Details) : Work Entry := do
  let old := Versioned.stamp before
  let new := Versioned.stamp after
  let entry : Entry :=
    { kind := Versioned.kind R
      entity := (Versioned.id after).bare
      column := change.1
      oldTime := old.changed
      newTime := new.changed
      oldSignature := old.signature
      newSignature := new.signature
      details := change.2
      order := ← nextNumber .trail
      time }
  execute fun tables => tables.insertEntry entry
  return entry

/-- Notes every change of a watched column in the trail. -/
def note (before after : R) : Work (List Entry) := do
  let time ← now
  (changes Versioned.watched before after).mapM (noteChange before after time)

end Work

end SealedDirectory
