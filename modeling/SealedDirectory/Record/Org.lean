import SealedDirectory.Record.Stamp

/-!
# Organizations

An organization has a unique name and an owner, who is one of its members.  A name
is not blank and takes at most a hundred bytes.
-/

namespace SealedDirectory

structure Org where
  id : OrgId
  name : String
  owner : UserId
  stamp : Stamp
  deriving DecidableEq, Repr

inductive OrgRule where
  | emptyName
  | longName (bytes : Nat)
  deriving DecidableEq, Repr

/-- The greatest number of bytes of a name. -/
def OrgRule.nameLimit : Nat := 100

def OrgRule.message : OrgRule → String
  | .emptyName => "Organization name cannot be empty"
  | .longName bytes =>
      s!"Organization name too long ({bytes} chars, max {OrgRule.nameLimit})"

namespace Org

def checkName (name : String) : Except OrgRule Unit :=
  if (Text.trim name).isEmpty then .error .emptyName
  else if OrgRule.nameLimit < name.utf8ByteSize then .error (.longName name.utf8ByteSize)
  else .ok ()

def check (org : Org) : Except OrgRule Unit :=
  checkName org.name

/-- The name with the status behind it. -/
def display (org : Org) : String :=
  org.name ++ " (" ++ org.stamp.status.name ++ ")"

/-- The fields of an organization in a document. -/
def fields :=
  Json.Fields.cons ⟨"id", Id.codec .org, none⟩ <|
  Json.Fields.cons ⟨"name", .text, none⟩ <|
  Json.Fields.cons ⟨"owner", Id.codec .user, none⟩ <|
  Json.Fields.cons ⟨"meta", Stamp.codec, none⟩ Json.Fields.nil

def codec : Json.Codec Org :=
  Json.Codec.record "Org" fields
    (fun (id, name, owner, stamp, ()) => { id, name, owner, stamp })
    (fun org => (org.id, org.name, org.owner, org.stamp, ()))

end Org

end SealedDirectory
