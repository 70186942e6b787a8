import SealedDirectory.Key.Envelope
import SealedDirectory.Store.Cell
import SealedDirectory.Trail.Entry

/-!
# Stored rows

The rows of the tables of the store.  Status, role and the kind of an entry are
guarded by conditions of the store itself and always hold proper values; the other
typed columns are cells.

A row is read column by column in a fixed order, and the first column that cannot be
read decides the fault.
-/

namespace SealedDirectory

structure OrgRow where
  id : Cell OrgId
  name : String
  owner : Cell UserId
  created : Cell Int
  changed : Cell Int
  order : Cell Int
  role : Role
  layout : Cell Int
  signature : Cell Signature
  status : Status
  deriving DecidableEq

namespace OrgRow

def ofOrg (org : Org) : OrgRow :=
  { id := .holds org.id
    name := org.name
    owner := .holds org.owner
    created := .holds org.stamp.created
    changed := .holds org.stamp.changed
    order := .holds org.stamp.order
    role := org.stamp.role
    layout := .holds org.stamp.layout
    signature := .holds org.stamp.signature
    status := org.stamp.status }

def toOrg (row : OrgRow) : Except Fault Org := do
  let id ← row.id.read 0 "id"
  let owner ← row.owner.read 2 "owner"
  let created ← row.created.read 3 "ctime"
  let changed ← row.changed.read 4 "mtime"
  let order ← row.order.read 5 "insert_order"
  let layout ← row.layout.read 7 "schema_version"
  let signature ← row.signature.read 8 "signature"
  return {
    id, name := row.name, owner
    stamp := { created, changed, order, signature, status := row.status, role := row.role,
               layout } }

@[simp]
theorem toOrg_ofOrg (org : Org) : (ofOrg org).toOrg = .ok org := rfl

end OrgRow

structure UserRow where
  id : Cell UserId
  displayName : String
  displayNameDigest : String
  publicKey : String
  publicKeyDigest : String
  email : String
  emailDigest : String
  /-- The version of the key that the private texts are sealed under. -/
  keyVersion : Cell KeyVersion
  org : Cell OrgId
  password : String
  created : Cell Int
  changed : Cell Int
  order : Cell Int
  role : Role
  layout : Cell Int
  signature : Cell Signature
  status : Status
  deriving DecidableEq

/-- The three private texts of a user as they are stored. -/
structure SealedTexts where
  displayName : SealedField
  publicKey : SealedField
  email : SealedField
  deriving DecidableEq

/-- A user as read from its row, with the private texts still sealed. -/
structure StoredUser where
  id : UserId
  org : OrgId
  texts : SealedTexts
  /-- The version of the key that the private texts are sealed under. -/
  keyVersion : KeyVersion
  password : String
  stamp : Stamp
  deriving DecidableEq

namespace UserRow

/-- The row of a user with its private texts sealed. -/
def ofUser (user : User) (texts : SealedTexts) : UserRow :=
  { id := .holds user.id
    displayName := texts.displayName.ciphertext
    displayNameDigest := texts.displayName.digest
    publicKey := texts.publicKey.ciphertext
    publicKeyDigest := texts.publicKey.digest
    email := texts.email.ciphertext
    emailDigest := texts.email.digest
    keyVersion := .holds user.keyVersion
    org := .holds user.org
    password := user.password
    created := .holds user.stamp.created
    changed := .holds user.stamp.changed
    order := .holds user.stamp.order
    role := user.stamp.role
    layout := .holds user.stamp.layout
    signature := .holds user.stamp.signature
    status := user.stamp.status }

/-- Reads a row; the version of the key comes first, since the private texts need it. -/
def toStored (row : UserRow) : Except Fault StoredUser := do
  let keyVersion ← row.keyVersion.read 8 "key_version"
  let id ← row.id.read 0 "id"
  let org ← row.org.read 1 "org"
  let created ← row.created.read 10 "ctime"
  let changed ← row.changed.read 11 "mtime"
  let order ← row.order.read 12 "insert_order"
  let layout ← row.layout.read 14 "schema_version"
  let signature ← row.signature.read 15 "signature"
  return {
    id, org, keyVersion
    texts :=
      { displayName := ⟨row.displayName, row.displayNameDigest, keyVersion⟩
        publicKey := ⟨row.publicKey, row.publicKeyDigest, keyVersion⟩
        email := ⟨row.email, row.emailDigest, keyVersion⟩ }
    password := row.password
    stamp := { created, changed, order, signature, status := row.status, role := row.role,
               layout } }

end UserRow

/-- Opens the private texts of a stored user one after the other. -/
def StoredUser.opened (stored : StoredUser) (ring : KeyRing) : Except Fault User := do
  let displayName ← stored.texts.displayName.opened ring
  let publicKey ← stored.texts.publicKey.opened ring
  let email ← stored.texts.email.opened ring
  return {
    id := stored.id, org := stored.org, displayName, publicKey, email
    keyVersion := stored.keyVersion, password := stored.password, stamp := stored.stamp }

structure EntryRow where
  kind : RecordKind
  entity : String
  column : String
  /-- When the record was changed the time before. -/
  oldTime : Cell Int
  newTime : Cell Int
  oldSignature : Cell Signature
  newSignature : Cell Signature
  details : String
  /-- The place in the order of the trail. -/
  order : Cell Int
  time : Cell Int
  deriving DecidableEq

namespace EntryRow

def ofEntry (entry : Entry) : EntryRow :=
  { kind := entry.kind
    entity := entry.entity
    column := entry.column
    oldTime := .holds entry.oldTime
    newTime := .holds entry.newTime
    oldSignature := .holds entry.oldSignature
    newSignature := .holds entry.newSignature
    details := entry.details.text
    order := .holds entry.order
    time := .holds entry.time }

/-- The entry of a row; the details are read last. -/
def toEntry (row : EntryRow) : Except Fault Entry := do
  let oldTime ← row.oldTime.read 3 "old_mtime"
  let newTime ← row.newTime.read 4 "new_mtime"
  let oldSignature ← row.oldSignature.read 5 "old_signature"
  let newSignature ← row.newSignature.read 6 "new_signature"
  let order ← row.order.read 8 "insert_order"
  let time ← row.time.read 9 "ctime"
  let details ← (Details.codec.decode row.details).mapError fun refusal =>
    Fault.store (.badDetails order refusal)
  return { kind := row.kind, entity := row.entity, column := row.column, oldTime, newTime,
           oldSignature, newSignature, details, order, time }

end EntryRow

structure SignatureRow where
  signature : Cell Signature
  /-- The kind of record it was issued for. -/
  source : Cell RecordKind
  time : Cell Int
  deriving DecidableEq

/-- The highest number of a sequence that is known to be used. -/
structure MarkRow where
  name : Cell String
  value : Cell Int
  deriving DecidableEq

/-- A remark of the store about itself. -/
structure NoteRow where
  key : Cell String
  value : String
  deriving DecidableEq

end SealedDirectory
