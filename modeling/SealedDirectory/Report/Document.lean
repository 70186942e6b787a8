import SealedDirectory.Directory.Mutation
import SealedDirectory.Store.Document

/-!
# Records as documents

What listings are for readers, documents are for programs: an organization, a user
with its digests, a change with the entries it added to the trail, and the sizes of
all tables.  The short text by which a record is shown is part of its document.
-/

namespace SealedDirectory

/-- The document of an organization, with its short text. -/
def Org.document (org : Org) : Json :=
  .object (Org.fields.write (org.id, org.name, org.owner, org.stamp, ()) ++
    [("display", .text org.display)])

/-- The document of a user, with its digests and its short text. -/
def User.document (user : User) : Json :=
  .object [
    ("id", .text user.id.bare),
    ("org", .text user.org.bare),
    ("display_name", .text user.displayName),
    ("display_name_digest", .text user.displayNameDigest),
    ("public_key", .text user.publicKey),
    ("public_key_digest", .text user.publicKeyDigest),
    ("email", .text user.email),
    ("email_digest", .text user.emailDigest),
    ("key_version", .text user.keyVersion.bare),
    ("meta", Stamp.codec.write user.stamp),
    ("password", .text user.password),
    ("display", .text user.display)]

/-- The document of entries of the trail. -/
def Entry.documents (entries : List Entry) : Json :=
  .list (entries.map Entry.codec.write)

def Details.documents (changed : List (String × Details)) : Json :=
  .list (changed.map fun (column, details) =>
    .object [("column", .text column), ("old", details.old), ("new", details.new)])

def Mutation.document {R : Type} [Versioned R] (write : R → Json) (mutation : Mutation R) : Json :=
  .object [
    ("record", write mutation.record),
    ("signature", .text (Versioned.stamp mutation.record).signature.display),
    ("audit", Entry.documents mutation.entries)]

/-- The name and the number of a mark. -/
def MarkRow.document (mark : MarkRow) : Except Fault Json := do
  let name ← mark.name.read 0 "name"
  let value ← mark.value.read 1 "value"
  return .list [.text name, .integer value]

/-- The sizes of the tables, the marks by their names, and the version of the format. -/
def Tables.overview (tables : Tables) : Except Fault Json := do
  let marks := tables.marks.mergeSort fun left right => left.name.content.atMost right.name.content
  return .object [
    ("orgs", .integer tables.orgs.length),
    ("users", .integer tables.users.length),
    ("audit", .integer tables.trail.length),
    ("signatures", .integer tables.registry.length),
    ("sequences", .list (← marks.mapM MarkRow.document)),
    ("format_version", tables.format?.elim .null .text)]

end SealedDirectory
