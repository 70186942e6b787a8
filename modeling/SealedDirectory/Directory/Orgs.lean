import SealedDirectory.Directory.Mutation

/-!
# Organizations in the directory

An organization is created together with its owner, who is inserted unconfirmed and
then promoted by an ordinary change, all in one transaction.  Its status, its owner
and its name can be changed; the owner must be one of its members.
-/

namespace SealedDirectory

structure CreatedOrg where
  org : Org
  owner : User

namespace Directory

/-- The stamp of a record that is created now with the next place. -/
def initialStamp (status : Status) (role : Role) : Work Stamp := do
  let order ← Work.nextNumber .entity
  let time ← Work.now
  let signature ← Work.freshId .signature
  return Stamp.initial time order signature status role Stamp.currentLayout

/-- Inserts an unconfirmed user and registers its signature. -/
def insertUser (ring : KeyRing) (org : OrgId) (new : NewUser) : Work User := do
  let id ← Work.freshId .user
  let user : User :=
    { id, org
      displayName := new.displayName
      publicKey := new.publicKey
      email := new.email
      keyVersion := ring.current
      password := new.password
      stamp := ← initialStamp .unconfirmed new.role }
  user.insert ring
  Work.execute fun tables =>
    tables.register user.stamp.signature .user user.stamp.created
  return user

/-- Inserts an organization and its owner, who is not confirmed yet. -/
def insertOrg (ring : KeyRing) (name : String) (new : NewOrg) : Work CreatedOrg := do
  let id ← Work.freshId .org
  let owner ← insertUser ring id new.owner
  let org : Org :=
    { id, name, owner := owner.id, stamp := ← initialStamp new.status new.role }
  Work.require org.check fun rule => .invalid (.org rule)
  Work.execute fun tables => tables.insertOrg (OrgRow.ofOrg org)
  Work.execute fun tables => tables.register org.stamp.signature .org org.stamp.created
  return { org, owner }

/-- Promotes the owner of a new organization by an ordinary change. -/
def promoteOwner (ring : KeyRing) (created : CreatedOrg) : Work CreatedOrg := do
  let owner := created.owner
  let promoted ← Work.mutate ring owner.id owner.stamp.signature fun user : User =>
    return { user with stamp := { user.stamp with status := .active } }
  return { created with owner := promoted.record }

def createOrg (ring : KeyRing) (new : NewOrg) : Work CreatedOrg := do
  let name := Text.trim new.name
  Work.require (Org.checkName name) fun rule => .invalid (.org rule)
  Work.require new.owner.check fun rule => .invalid (.user rule)
  Work.transaction do
    let inserted ← insertOrg ring name new
    promoteOwner ring inserted

def org? (id : OrgId) : Work (Option Org) :=
  Work.ask fun tables => tables.org? id

/-- The organization of a name, blanks around it left aside. -/
def orgNamed? (name : String) : Work (Option Org) :=
  Work.ask fun tables => tables.orgNamed? (Text.trim name)

/-- The organization of a name or else of an identifier in text. -/
def findOrg? (text : String) : Work (Option Org) := do
  match ← orgNamed? text with
  | some org => return some org
  | none =>
      match Id.parse .org text with
      | .ok id => org? id
      | .error _ => return none

/-- All organizations in the order of insertion. -/
def orgs : Work (List Org) :=
  Work.ask Tables.orgsInOrder

/-- The members of an organization in the order of insertion. -/
def members (ring : KeyRing) (org : OrgId) : Work (List User) :=
  Work.ask fun tables => tables.members ring org

/-- Changes an organization in a transaction of its own. -/
def changeOrg (ring : KeyRing) (id : OrgId) (expected : Signature) (change : Org → Work Org) :
    Work (Mutation Org) :=
  Work.transaction (Work.mutate ring id expected change)

def setOrgStatus (ring : KeyRing) (id : OrgId) (expected : Signature) (status : Status) :
    Work (Mutation Org) :=
  changeOrg ring id expected fun org =>
    return { org with stamp := { org.stamp with status } }

/-- Fails unless a user is a member of an organization. -/
def requireMember (user : UserId) (org : OrgId) : Work Unit := do
  match ← Work.ask fun tables => tables.orgOfUser? user with
  | some found => if found ≠ org then throw (.invalid (.notMember user org))
  | none => throw (.notFound .user user.display)

/-- Hands an organization to another of its members. -/
def setOwner (ring : KeyRing) (id : OrgId) (expected : Signature) (owner : UserId) :
    Work (Mutation Org) :=
  Work.transaction do
    requireMember owner id
    Work.mutate ring id expected fun org : Org => return { org with owner }

def renameOrg (ring : KeyRing) (id : OrgId) (expected : Signature) (name : String) :
    Work (Mutation Org) :=
  let name := Text.trim name
  changeOrg ring id expected fun org => do
    Work.require (Org.checkName name) fun rule => .invalid (.org rule)
    return { org with name }

end Directory

end SealedDirectory
