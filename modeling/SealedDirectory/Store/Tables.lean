import SealedDirectory.Store.Row

/-!
# Tables

The store is six tables: organizations, users, the trail, the registry of all
signatures ever issued, the marks of the two sequences, and remarks about itself.

Some columns, alone or together, must be unique.  A row that would break this is
refused, and the first broken rule in the order of the declarations below is named.
A statement that fails changes nothing.
-/

namespace SealedDirectory

/-- Columns that are unique together, and when two rows agree in them. -/
structure Unique (ρ : Type) where
  /-- The columns with the name of their table. -/
  columns : List String
  clash : ρ → ρ → Bool

/-- The first rule that a row breaks among others. -/
def brokenUnique? {ρ : Type} (uniques : List (Unique ρ)) (row : ρ) (others : List ρ) :
    Option (List String) :=
  (uniques.find? fun unique => others.any (unique.clash row)).map Unique.columns

def insertRow {ρ : Type} (uniques : List (Unique ρ)) (row : ρ) (rows : List ρ) :
    Except Fault (List ρ) :=
  match brokenUnique? uniques row rows with
  | some columns => .error (.taken columns)
  | none => .ok (rows ++ [row])

/-- Changes the selected rows one after the other; gives the table and how many there were. -/
def updateRows {ρ : Type} (uniques : List (Unique ρ)) (select : ρ → Bool)
    (change : ρ → Except Fault ρ) (done : List ρ) : List ρ → Except Fault (List ρ × Nat)
  | [] => .ok (done, 0)
  | row :: rest =>
      if select row then do
        let changed ← change row
        match brokenUnique? uniques changed (done ++ rest) with
        | some columns => .error (.taken columns)
        | none =>
            let (rows, count) ← updateRows uniques select change (done ++ [changed]) rest
            return (rows, count + 1)
      else updateRows uniques select change (done ++ [row]) rest

/-- Signature, place, name and identifier of an organization are unique. -/
def OrgRow.uniques : List (Unique OrgRow) :=
  [⟨["orgs.signature"], fun left right => left.signature.clashes right.signature⟩,
   ⟨["orgs.insert_order"], fun left right => left.order.clashes right.order⟩,
   ⟨["orgs.name"], fun left right => left.name = right.name⟩,
   ⟨["orgs.id"], fun left right => left.id.clashes right.id⟩]

/--
In one organization public keys and addresses are unique; signature, place and identifier
are so everywhere.
-/
def UserRow.uniques : List (Unique UserRow) :=
  [⟨["users.org", "users.public_key_digest"], fun left right =>
      left.org.clashes right.org && left.publicKeyDigest = right.publicKeyDigest⟩,
   ⟨["users.org", "users.email_digest"], fun left right =>
      left.org.clashes right.org && left.emailDigest = right.emailDigest⟩,
   ⟨["users.signature"], fun left right => left.signature.clashes right.signature⟩,
   ⟨["users.insert_order"], fun left right => left.order.clashes right.order⟩,
   ⟨["users.id"], fun left right => left.id.clashes right.id⟩]

/-- A column changes at most once from a signature and at most once to one. -/
def EntryRow.uniques : List (Unique EntryRow) :=
  [⟨["audit.old_signature", "audit.audit_column"], fun left right =>
      left.oldSignature.clashes right.oldSignature && left.column = right.column⟩,
   ⟨["audit.new_signature", "audit.audit_column"], fun left right =>
      left.newSignature.clashes right.newSignature && left.column = right.column⟩,
   ⟨["audit.insert_order"], fun left right => left.order.clashes right.order⟩]

def SignatureRow.uniques : List (Unique SignatureRow) :=
  [⟨["signatures.signature"], fun left right => left.signature.clashes right.signature⟩]

def MarkRow.uniques : List (Unique MarkRow) :=
  [⟨["sequences.name"], fun left right => left.name.clashes right.name⟩]

/-- There is one remark about a thing. -/
def NoteRow.uniques : List (Unique NoteRow) :=
  [⟨["meta.key"], fun left right => left.key.clashes right.key⟩]

structure Tables where
  orgs : List OrgRow
  users : List UserRow
  trail : List EntryRow
  registry : List SignatureRow
  marks : List MarkRow
  notes : List NoteRow
  deriving DecidableEq

namespace Tables

def empty : Tables :=
  { orgs := [], users := [], trail := [], registry := [], marks := [], notes := [] }

/-- The remark that names the version of the format. -/
def formatKey : String := "format_version"

def formatVersion : String := "1"

/-- Notes the version of the format unless there is a note about it. -/
def founded (tables : Tables) : Tables :=
  if tables.notes.any fun note => note.key = .holds formatKey then tables
  else { tables with notes := tables.notes ++ [⟨.holds formatKey, formatVersion⟩] }

/-- What the store says about the version of its format. -/
def format? (tables : Tables) : Option String :=
  (tables.notes.find? fun note => note.key = .holds formatKey).map NoteRow.value

def insertOrg (tables : Tables) (row : OrgRow) : Except Fault Tables := do
  return { tables with orgs := ← insertRow OrgRow.uniques row tables.orgs }

def insertUser (tables : Tables) (row : UserRow) : Except Fault Tables := do
  return { tables with users := ← insertRow UserRow.uniques row tables.users }

def insertEntry (tables : Tables) (entry : Entry) : Except Fault Tables := do
  return { tables with
    trail := ← insertRow EntryRow.uniques (EntryRow.ofEntry entry) tables.trail }

def register (tables : Tables) (signature : Signature) (source : RecordKind) (time : Int) :
    Except Fault Tables := do
  return { tables with
    registry := ← insertRow SignatureRow.uniques
      ⟨.holds signature, .holds source, .holds time⟩ tables.registry }

/--
Writes the changeable columns of an organization over the row that has its identifier
and the expected signature.  Gives whether there was exactly one.
-/
def updateOrg (tables : Tables) (org : Org) (expected : Signature) :
    Except Fault (Tables × Bool) := do
  let (orgs, count) ← updateRows OrgRow.uniques
    (fun row => row.id = .holds org.id ∧ row.signature = .holds expected)
    (fun row => .ok { row with
      name := org.name
      owner := .holds org.owner
      changed := .holds org.stamp.changed
      signature := .holds org.stamp.signature
      status := org.stamp.status
      role := org.stamp.role })
    [] tables.orgs
  return ({ tables with orgs }, count == 1)

/--
Writes the changeable columns of a user over the row that has its identifier and the
expected signature.  Gives whether there was exactly one.
-/
def updateUser (tables : Tables) (user : User) (texts : SealedTexts) (expected : Signature) :
    Except Fault (Tables × Bool) := do
  let (users, count) ← updateRows UserRow.uniques
    (fun row => row.id = .holds user.id ∧ row.signature = .holds expected)
    (fun row => .ok { row with
      displayName := texts.displayName.ciphertext
      displayNameDigest := texts.displayName.digest
      publicKey := texts.publicKey.ciphertext
      publicKeyDigest := texts.publicKey.digest
      email := texts.email.ciphertext
      emailDigest := texts.email.digest
      keyVersion := .holds user.keyVersion
      password := user.password
      changed := .holds user.stamp.changed
      signature := .holds user.stamp.signature
      status := user.stamp.status
      role := user.stamp.role })
    [] tables.users
  return ({ tables with users }, count == 1)

/-- Rows in the order of a cell. -/
def inOrder {ρ : Type} (order : ρ → Cell Int) (rows : List ρ) : List ρ :=
  rows.mergeSort fun left right => (order left).content.atMost (order right).content

def org? (tables : Tables) (id : OrgId) : Except Fault (Option Org) :=
  (tables.orgs.find? fun row => row.id = .holds id).mapM OrgRow.toOrg

def orgNamed? (tables : Tables) (name : String) : Except Fault (Option Org) :=
  (tables.orgs.find? fun row => row.name = name).mapM OrgRow.toOrg

/-- All organizations in the order of insertion. -/
def orgsInOrder (tables : Tables) : Except Fault (List Org) :=
  (inOrder OrgRow.order tables.orgs).mapM OrgRow.toOrg

def storedUser? (tables : Tables) (id : UserId) : Except Fault (Option StoredUser) :=
  (tables.users.find? fun row => row.id = .holds id).mapM UserRow.toStored

/-- The user of an identifier, opened with a key ring. -/
def user? (tables : Tables) (ring : KeyRing) (id : UserId) : Except Fault (Option User) := do
  (← tables.storedUser? id).mapM fun stored => stored.opened ring

/-- The organization of a user, which needs no key. -/
def orgOfUser? (tables : Tables) (id : UserId) : Except Fault (Option OrgId) :=
  (tables.users.find? fun row => row.id = .holds id).mapM fun row => row.org.read 0 "org"

/--
The members of an organization in the order of insertion; all rows are read before one
is opened.
-/
def members (tables : Tables) (ring : KeyRing) (org : OrgId) : Except Fault (List User) := do
  let rows := tables.users.filter fun row => row.org = .holds org
  let stored ← (inOrder UserRow.order rows).mapM UserRow.toStored
  stored.mapM fun user => user.opened ring

/-- The users that are sealed under another version, in the order of insertion. -/
def staleUsers (tables : Tables) (current : KeyVersion) : Except Fault (List UserId) :=
  (inOrder UserRow.order
      (tables.users.filter fun row => row.keyVersion ≠ .holds current)).mapM
    fun row => row.id.read 0 "id"

/-- The kind of record that a signature was issued for. -/
def source? (tables : Tables) (signature : Signature) : Except Fault (Option RecordKind) :=
  (tables.registry.find? fun row => row.signature = .holds signature).mapM fun row =>
    row.source.read 0 "source_table"

end Tables

/-- Which entries of the trail are asked for. -/
structure TrailFilter where
  kind : Option RecordKind := none
  /-- Only those of the record with this bare identifier. -/
  entity : Option String := none
  column : Option String := none
  /-- At most so many; a number that does not fit into sixty-three bits sets no limit. -/
  limit : Option Nat := none
  deriving DecidableEq, Repr

namespace TrailFilter

def admits (filter : TrailFilter) (row : EntryRow) : Bool :=
  filter.kind.all (· = row.kind) && filter.entity.all (· = row.entity) &&
    filter.column.all (· = row.column)

def cut {ρ : Type} (filter : TrailFilter) (rows : List ρ) : List ρ :=
  match filter.limit with
  | none => rows
  | some limit => if limit < Nat.pow 2 63 then rows.take limit else rows

def ofRecord (kind : RecordKind) (entity : String) : TrailFilter :=
  { kind := some kind, entity := some entity }

end TrailFilter

namespace Tables

/-- The entries that a filter asks for, in the order of the trail. -/
def entries (tables : Tables) (filter : TrailFilter) : Except Fault (List Entry) :=
  (filter.cut (inOrder EntryRow.order (tables.trail.filter filter.admits))).mapM
    EntryRow.toEntry

end Tables

end SealedDirectory
