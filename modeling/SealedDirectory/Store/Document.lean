import SealedDirectory.Store.Tables

/-!
# The store as a document

Between two processes the store lies in a file.  The file holds a heading, by which it is
told from other files, and one document with all tables in it, every row as the list of
its columns by name, and every cell as the content that it has, so that a foreign content
comes back as it was.
-/

namespace SealedDirectory

namespace Content

/-- The document of a content; a double stands as its bits in a list of its own. -/
def document : Content → Json
  | .nothing => .null
  | .integer value => .integer value
  | .double bits => .list [.integer bits.toNat]
  | .text value => .text value

/-- The content that a plain document is. -/
def ofDocument : Json → Except String Content
  | .null => .ok .nothing
  | .number (.integer value) => .ok (.integer value)
  | .text value => .ok (.text value)
  | _ => .error "a cell holds nothing, a number or a text"

/-- The content that was written as a document. -/
def ofStored : Json → Except String Content
  | .list [.number (.integer bits)] => .ok (.double (UInt64.ofNat bits.toNat))
  | plain => ofDocument plain

def codec : Json.Codec Content :=
  Json.Codec.document.guarded document ofStored

end Content

def Cell.codec (α : Type) [Storable α] : Json.Codec (Cell α) :=
  Content.codec.guarded Cell.content fun content => .ok (Cell.ofContent content)

namespace OrgRow

/-- The columns of an organization in a document. -/
def fields :=
  Json.Fields.cons ⟨"id", Cell.codec OrgId, none⟩ <|
  Json.Fields.cons ⟨"name", .text, none⟩ <|
  Json.Fields.cons ⟨"owner", Cell.codec UserId, none⟩ <|
  Json.Fields.cons ⟨"ctime", Cell.codec Int, none⟩ <|
  Json.Fields.cons ⟨"mtime", Cell.codec Int, none⟩ <|
  Json.Fields.cons ⟨"insert_order", Cell.codec Int, none⟩ <|
  Json.Fields.cons ⟨"role", Role.codec, none⟩ <|
  Json.Fields.cons ⟨"schema_version", Cell.codec Int, none⟩ <|
  Json.Fields.cons ⟨"signature", Cell.codec Signature, none⟩ <|
  Json.Fields.cons ⟨"status", Status.codec, none⟩ Json.Fields.nil

/-- How the rows of organizations are written and read. -/
def codec : Json.Codec OrgRow :=
  Json.Codec.record "Org" fields
    (fun (id, name, owner, created, changed, order, role, layout, signature, status, ()) =>
      { id, name, owner, created, changed, order, role, layout, signature, status })
    (fun row =>
      (row.id, row.name, row.owner, row.created, row.changed, row.order, row.role, row.layout,
        row.signature, row.status, ()))

end OrgRow

namespace UserRow

/-- The columns of a user in a document. -/
def fields :=
  Json.Fields.cons ⟨"id", Cell.codec UserId, none⟩ <|
  Json.Fields.cons ⟨"display_name", .text, none⟩ <|
  Json.Fields.cons ⟨"display_name_digest", .text, none⟩ <|
  Json.Fields.cons ⟨"public_key", .text, none⟩ <|
  Json.Fields.cons ⟨"public_key_digest", .text, none⟩ <|
  Json.Fields.cons ⟨"email", .text, none⟩ <|
  Json.Fields.cons ⟨"email_digest", .text, none⟩ <|
  Json.Fields.cons ⟨"key_version", Cell.codec KeyVersion, none⟩ <|
  Json.Fields.cons ⟨"org", Cell.codec OrgId, none⟩ <|
  Json.Fields.cons ⟨"password", .text, none⟩ <|
  Json.Fields.cons ⟨"ctime", Cell.codec Int, none⟩ <|
  Json.Fields.cons ⟨"mtime", Cell.codec Int, none⟩ <|
  Json.Fields.cons ⟨"insert_order", Cell.codec Int, none⟩ <|
  Json.Fields.cons ⟨"role", Role.codec, none⟩ <|
  Json.Fields.cons ⟨"schema_version", Cell.codec Int, none⟩ <|
  Json.Fields.cons ⟨"signature", Cell.codec Signature, none⟩ <|
  Json.Fields.cons ⟨"status", Status.codec, none⟩ Json.Fields.nil

/-- How the rows of users are written and read. -/
def codec : Json.Codec UserRow :=
  Json.Codec.record "User" fields
    (fun (id, displayName, displayNameDigest, publicKey, publicKeyDigest, email, emailDigest,
        keyVersion, org, password, created, changed, order, role, layout, signature, status,
        ()) =>
      { id, displayName, displayNameDigest, publicKey, publicKeyDigest, email, emailDigest,
        keyVersion, org, password, created, changed, order, role, layout, signature, status })
    (fun row =>
      (row.id, row.displayName, row.displayNameDigest, row.publicKey, row.publicKeyDigest,
        row.email, row.emailDigest, row.keyVersion, row.org, row.password, row.created,
        row.changed, row.order, row.role, row.layout, row.signature, row.status, ()))

end UserRow

namespace EntryRow

/-- The columns of an entry in a document. -/
def fields :=
  Json.Fields.cons ⟨"audit_table", RecordKind.codec, none⟩ <|
  Json.Fields.cons ⟨"audit_id", .text, none⟩ <|
  Json.Fields.cons ⟨"audit_column", .text, none⟩ <|
  Json.Fields.cons ⟨"old_mtime", Cell.codec Int, none⟩ <|
  Json.Fields.cons ⟨"new_mtime", Cell.codec Int, none⟩ <|
  Json.Fields.cons ⟨"old_signature", Cell.codec Signature, none⟩ <|
  Json.Fields.cons ⟨"new_signature", Cell.codec Signature, none⟩ <|
  Json.Fields.cons ⟨"details", .text, none⟩ <|
  Json.Fields.cons ⟨"insert_order", Cell.codec Int, none⟩ <|
  Json.Fields.cons ⟨"ctime", Cell.codec Int, none⟩ Json.Fields.nil

/-- How the rows of the trail are written and read. -/
def codec : Json.Codec EntryRow :=
  Json.Codec.record "Entry" fields
    (fun (kind, entity, column, oldTime, newTime, oldSignature, newSignature, details, order,
        time, ()) =>
      { kind, entity, column, oldTime, newTime, oldSignature, newSignature, details, order,
        time })
    (fun row =>
      (row.kind, row.entity, row.column, row.oldTime, row.newTime, row.oldSignature,
        row.newSignature, row.details, row.order, row.time, ()))

end EntryRow

/-- How the rows of the registry are written and read. -/
def SignatureRow.codec : Json.Codec SignatureRow :=
  Json.Codec.record "Signature"
    (.cons ⟨"signature", Cell.codec Signature, none⟩ <|
     .cons ⟨"source_table", Cell.codec RecordKind, none⟩ <|
      .cons ⟨"ctime", Cell.codec Int, none⟩ .nil)
    (fun (signature, source, time, ()) => { signature, source, time })
    (fun row => (row.signature, row.source, row.time, ()))

def MarkRow.codec : Json.Codec MarkRow :=
  Json.Codec.record "Mark"
    (.cons ⟨"name", Cell.codec String, none⟩ <| .cons ⟨"value", Cell.codec Int, none⟩ .nil)
    (fun (name, value, ()) => { name, value }) (fun row => (row.name, row.value, ()))

def NoteRow.codec : Json.Codec NoteRow :=
  Json.Codec.record "Note"
    (.cons ⟨"key", Cell.codec String, none⟩ <| .cons ⟨"value", .text, none⟩ .nil)
    (fun (key, value, ()) => { key, value }) (fun row => (row.key, row.value, ()))

namespace Tables

def fields :=
  Json.Fields.cons ⟨"orgs", .list OrgRow.codec, none⟩ <|
  Json.Fields.cons ⟨"users", .list UserRow.codec, none⟩ <|
  Json.Fields.cons ⟨"audit", .list EntryRow.codec, none⟩ <|
  Json.Fields.cons ⟨"signatures", .list SignatureRow.codec, none⟩ <|
  Json.Fields.cons ⟨"sequences", .list MarkRow.codec, none⟩ <|
  Json.Fields.cons ⟨"meta", .list NoteRow.codec, none⟩ Json.Fields.nil

/-- How the store is written and read. -/
def codec : Json.Codec Tables :=
  Json.Codec.record "Store" fields
    (fun (orgs, users, trail, registry, marks, notes, ()) =>
      { orgs, users, trail, registry, marks, notes })
    (fun tables =>
      (tables.orgs, tables.users, tables.trail, tables.registry, tables.marks, tables.notes, ()))

/-- The line that a file with a store begins with. -/
def heading : String := "orgvault store 1\n"

/-- The text of a file with the store. -/
def text (tables : Tables) : String :=
  heading ++ (codec.write tables).compact

/-- The store in a file with the given text, if it holds one. -/
def ofText? (text : String) : Option Tables :=
  (heading.toList.isPrefixOf? text.toList).bind fun document =>
    (codec.decode (String.ofList document)).toOption

end Tables

end SealedDirectory
