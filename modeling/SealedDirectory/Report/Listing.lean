import SealedDirectory.Calendar.Date
import SealedDirectory.Key.Envelope
import SealedDirectory.Trail.Entry

/-!
# Listings

Organizations, users and entries of the trail as tables for readers, and single
records with all that may be shown of them.  A column is as wide as its longest
value; the width of names of organizations and of columns is measured in bytes, that
of names and addresses of users in characters.
-/

namespace SealedDirectory.Listing

/-- A text with blanks behind it up to a width in characters. -/
def left (width : Nat) (text : String) : String :=
  text ++ String.ofList (List.replicate (width - text.length) ' ')

/-- A text with blanks in front of it up to a width in characters. -/
def right (width : Nat) (text : String) : String :=
  String.ofList (List.replicate (width - text.length) ' ') ++ text

def rule (width : Nat) : String :=
  String.ofList (List.replicate width '-')

/-- The greatest of some widths and a least one. -/
def widest (least : Nat) (widths : List Nat) : Nat :=
  widths.foldl max least

/-- The width of the columns of short identifiers and of the status. -/
def shortWidth : Nat := 12

/-- The cells of a line with two blanks between them. -/
def line (cells : List String) : String :=
  "  ".intercalate cells ++ "\n"

def orgs (listed : List Org) : String :=
  if listed.isEmpty then "No orgs found."
  else
    let width := widest 4 (listed.map fun org => org.name.utf8ByteSize)
    let row (name id owner status signature : String) : String :=
      line [left width name, left shortWidth id, left shortWidth owner,
        left shortWidth status, signature]
    let short := rule shortWidth
    row "Name" "ID" "Owner" "Status" "Signature" ++
      line [rule width, short, short, short, short] ++
      String.join (listed.map fun org =>
        row org.name org.id.short org.owner.short org.stamp.status.name
          org.stamp.signature.short)

/-- A member in the listing of an organization. -/
def member (org : Org) (user : User) : String :=
  "  " ++ user.id.short ++ "  " ++ user.displayName ++ "  " ++ user.stamp.status.name ++
    (if user.id = org.owner then " (owner)" else "") ++ "\n"

def org (shown : Org) (members : List User) : String :=
  "Org: " ++ shown.name ++
    "\n  ID:         " ++ shown.id.display ++
    "\n  Owner:      " ++ shown.owner.display ++
    "\n  Status:     " ++ shown.stamp.status.name ++
    "\n  Role:       " ++ shown.stamp.role.name ++
    "\n  Signature:  " ++ shown.stamp.signature.display ++
    "\n  Created:    " ++ Calendar.stampText shown.stamp.created ++
    "\n  Modified:   " ++ Calendar.stampText shown.stamp.changed ++
    "\n\nMembers (" ++ toString members.length ++ "):\n" ++
    (if members.isEmpty then "  (none)\n" else String.join (members.map (member shown)))

def users (listed : List User) : String :=
  if listed.isEmpty then "No users found."
  else
    let nameWidth := widest 4 (listed.map fun user => user.displayName.length)
    let emailWidth := widest 5 (listed.map fun user => user.email.length)
    let row (id name email status signature : String) : String :=
      line [left shortWidth id, left nameWidth name, left emailWidth email,
        left shortWidth status, signature]
    let short := rule shortWidth
    row "ID" "Name" "Email" "Status" "Signature" ++
      line [short, rule nameWidth, rule emailWidth, short, short] ++
      String.join (listed.map fun user =>
        row user.id.short user.displayName user.email user.stamp.status.name
          user.stamp.signature.short)

/-- A user with all that may be shown; the password may not. -/
def user (shown : User) : String :=
  "User: " ++ shown.displayName ++
    "\n  ID:           " ++ shown.id.display ++
    "\n  Org:          " ++ shown.org.display ++
    "\n  Email:        " ++ shown.email ++
    "\n  Public Key:   " ++ shown.publicKey ++
    "\n  Status:       " ++ shown.stamp.status.name ++
    "\n  Role:         " ++ shown.stamp.role.name ++
    "\n  Key Version:  " ++ shown.keyVersion.display ++
    "\n  Signature:    " ++ shown.stamp.signature.display ++
    "\n  Created:      " ++ Calendar.stampText shown.stamp.created ++
    "\n  Modified:     " ++ Calendar.stampText shown.stamp.changed ++ "\n"

/-- Entries of the trail as a table. -/
def trail (listed : List Entry) : String :=
  if listed.isEmpty then "No audit records found."
  else
    let width := widest 6 (listed.map fun entry => entry.column.utf8ByteSize)
    let row (place time table entity column old new signature : String) : String :=
      line [right 6 place, left 19 time, left 5 table, left 8 entity, left width column,
        left 22 old, left 22 new, signature]
    row "#" "When" "Table" "Entity" "Column" "Old" "New" "Signature" ++
      line [rule 6, rule 19, rule 5, rule 8, rule width, rule 22, rule 22, rule shortWidth] ++
      String.join (listed.map fun entry =>
        row (toString entry.order) (Calendar.stampText entry.time) entry.kind.table
          (String.ofList (entry.entity.toList.take 8)) entry.column
          (valueText entry.details.old) (valueText entry.details.new)
          entry.newSignature.short)

end SealedDirectory.Listing
