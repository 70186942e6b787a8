import SealedDirectory.Directory.Users
import SealedDirectory.Proofs.Store.Kind
import SealedDirectory.Proofs.Work.Outcome

/-!
# Requests

Everything that a caller can ask of the directory is a request, which may change
records, or a query, which only shows them.  Both are performed with a key ring, and
each performance may use another one.  What a caller learns of a record is a sighting:
its identifier together with a signature.
-/

namespace SealedDirectory

/-- A record as a caller knows it: by its identifier, and under a signature. -/
structure Sight where
  kind : RecordKind
  id : Uuid
  signature : Signature
  deriving DecidableEq

def Org.sight (org : Org) : Sight :=
  ⟨.org, org.id.uuid, org.stamp.signature⟩

def User.sight (user : User) : Sight :=
  ⟨.user, user.id.uuid, user.stamp.signature⟩

/-- What a caller can ask to be changed. -/
inductive Request where
  | createOrg (new : NewOrg)
  | createUser (org : OrgId) (new : NewUser)
  | setOrgStatus (id : OrgId) (expected : Signature) (status : Status)
  /-- Hand an organization to another of its members. -/
  | setOwner (id : OrgId) (expected : Signature) (owner : UserId)
  | renameOrg (id : OrgId) (expected : Signature) (name : String)
  | setDisplayName (id : UserId) (expected : Signature) (name : String)
  | setPublicKey (id : UserId) (expected : Signature) (key : String)
  | setEmail (id : UserId) (expected : Signature) (email : String)
  | setPassword (id : UserId) (expected : Signature) (encoded : String)
  | setUserStatus (id : UserId) (expected : Signature) (status : Status)
  | rekey (id : UserId) (expected : Signature)

inductive Response where
  | created (created : CreatedOrg)
  | added (user : User)
  | changedOrg (mutation : Mutation Org)
  | changedUser (mutation : Mutation User)

def Response.sights : Response → List Sight
  | .created founded => [founded.org.sight, founded.owner.sight]
  | .added user => [user.sight]
  | .changedOrg mutation => [mutation.record.sight]
  | .changedUser mutation => [mutation.record.sight]

namespace Request

/-- Performs a request with a key ring. -/
def perform (ring : KeyRing) : Request → Work Response
  | .createOrg new => return .created (← Directory.createOrg ring new)
  | .createUser org new => return .added (← Directory.createUser ring org new)
  | .setOrgStatus id expected status =>
      return .changedOrg (← Directory.setOrgStatus ring id expected status)
  | .setOwner id expected owner =>
      return .changedOrg (← Directory.setOwner ring id expected owner)
  | .renameOrg id expected name =>
      return .changedOrg (← Directory.renameOrg ring id expected name)
  | .setDisplayName id expected name =>
      return .changedUser (← Directory.setDisplayName ring id expected name)
  | .setPublicKey id expected key =>
      return .changedUser (← Directory.setPublicKey ring id expected key)
  | .setEmail id expected email =>
      return .changedUser (← Directory.setEmail ring id expected email)
  | .setPassword id expected encoded =>
      return .changedUser (← Directory.setPassword ring id expected encoded)
  | .setUserStatus id expected status =>
      return .changedUser (← Directory.setUserStatus ring id expected status)
  | .rekey id expected => return .changedUser (← Directory.rekey ring id expected)

/-- The record that is to be changed, under the signature that the caller expects. -/
def target? : Request → Option Sight
  | .createOrg _ | .createUser _ _ => none
  | .setOrgStatus id expected _ | .setOwner id expected _ | .renameOrg id expected _ =>
      some ⟨.org, id.uuid, expected⟩
  | .setDisplayName id expected _ | .setPublicKey id expected _ | .setEmail id expected _
  | .setPassword id expected _ | .setUserStatus id expected _ | .rekey id expected =>
      some ⟨.user, id.uuid, expected⟩

end Request

/-- What a caller can ask to be shown. -/
inductive Query where
  | org (id : OrgId)
  | orgNamed (name : String)
  /-- The organization of a name or of an identifier in text. -/
  | findOrg (text : String)
  | orgs
  | members (org : OrgId)
  | user (id : UserId)
  /-- The user of an identifier, who must exist. -/
  | requiredUser (id : UserId)

/-- The records that a query shows when it is answered with a key ring. -/
def Query.perform (ring : KeyRing) : Query → Work (List Sight)
  | .org id => return (← Directory.org? id).toList.map Org.sight
  | .orgNamed name => return (← Directory.orgNamed? name).toList.map Org.sight
  | .findOrg text => return (← Directory.findOrg? text).toList.map Org.sight
  | .orgs => return (← Directory.orgs).map Org.sight
  | .members group => return (← Directory.members ring group).map User.sight
  | .user id => return (← Directory.user? ring id).toList.map User.sight
  | .requiredUser id => return [(← Directory.requireUser ring id).sight]

end SealedDirectory
