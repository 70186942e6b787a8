import SealedDirectory.Directory.Orgs

/-!
# Users in the directory

A user is added to an existing organization.  Every change of a user writes its
private texts anew under the current key, so bringing a user to the current key is a
change that changes nothing else.
-/

namespace SealedDirectory.Directory

def createUser (ring : KeyRing) (org : OrgId) (new : NewUser) : Work User := do
  Work.require new.check fun rule => .invalid (.user rule)
  Work.transaction do
    if (← org? org).isNone then throw (.notFound .org org.display)
    insertUser ring org new

def user? (ring : KeyRing) (id : UserId) : Work (Option User) :=
  Work.ask fun tables => tables.user? ring id

/-- The user of an identifier, who must exist. -/
def requireUser (ring : KeyRing) (id : UserId) : Work User :=
  Work.load ring id

/--
Whether a guess matches an encoded password, by a function that gives tags and under the
costs in force where the encoded password names none.
-/
def checkPasswordBy (tagOf : Password.TagFunction) (usual : Argon2.Costs)
    (encoded guess : String) : Except Fault Bool :=
  match Password.Encoded.parse encoded with
  | .ok encoded => .ok (Password.matched tagOf usual encoded guess)
  | .error fault => .error (.password (.encoding fault))

/-- Whether a guess matches an encoded password. -/
def checkPassword (encoded guess : String) : Except Fault Bool :=
  checkPasswordBy Argon2.tag Password.usualCosts encoded guess

/-- A password encoded under costs with a salt, by a function that gives tags. -/
def encodePasswordBy (tagOf : Password.TagFunction) (costs : Argon2.Costs) (salt : Bytes)
    (password : String) : Except Fault String :=
  if password.isEmpty then .error (.invalid .emptyPassword)
  else
    match costs.fault? with
    | some fault => .error (.password (.costs fault))
    | none => .ok (Password.encode tagOf costs salt password).text

/-- A password encoded under costs with a salt. -/
def encodePassword (costs : Argon2.Costs) (salt : Bytes) (password : String) :
    Except Fault String :=
  encodePasswordBy Argon2.tag costs salt password

/-- A password encoded with a fresh salt. -/
def newPassword (costs : Argon2.Costs) (password : String) : Work String := do
  let salt ← Work.freshSalt
  match encodePassword costs salt password with
  | .ok text => return text
  | .error fault => throw fault

/-- Whether a guess is the password of a user. -/
def verifyPassword (ring : KeyRing) (id : UserId) (guess : String) : Work Bool := do
  let user ← requireUser ring id
  match checkPassword user.password guess with
  | .ok answer => return answer
  | .error fault => throw fault

/-- The users that are sealed under another key than the current one. -/
def staleUsers (ring : KeyRing) : Work (List UserId) :=
  Work.ask fun tables => tables.staleUsers ring.current

/-- Changes a user in a transaction of its own; the changed texts are checked. -/
def changeUser (ring : KeyRing) (id : UserId) (expected : Signature) (change : User → User) :
    Work (Mutation User) :=
  Work.transaction <| Work.mutate ring id expected fun user => do
    let changed := change user
    Work.require changed.check fun rule => .invalid (.user rule)
    return changed

def setDisplayName (ring : KeyRing) (id : UserId) (expected : Signature) (name : String) :
    Work (Mutation User) :=
  changeUser ring id expected fun user => { user with displayName := Text.trim name }

def setPublicKey (ring : KeyRing) (id : UserId) (expected : Signature) (key : String) :
    Work (Mutation User) :=
  changeUser ring id expected fun user => { user with publicKey := Text.trim key }

def setEmail (ring : KeyRing) (id : UserId) (expected : Signature) (email : String) :
    Work (Mutation User) :=
  changeUser ring id expected fun user => { user with email := Text.trim email }

/-- Replaces the encoded password of a user. -/
def setPassword (ring : KeyRing) (id : UserId) (expected : Signature) (encoded : String) :
    Work (Mutation User) :=
  changeUser ring id expected fun user => { user with password := encoded }

def setUserStatus (ring : KeyRing) (id : UserId) (expected : Signature) (status : Status) :
    Work (Mutation User) :=
  changeUser ring id expected fun user =>
    { user with stamp := { user.stamp with status } }

/-- Brings a user to the current key. -/
def rekey (ring : KeyRing) (id : UserId) (expected : Signature) : Work (Mutation User) :=
  changeUser ring id expected fun user => user

/-- Brings one user to the current key under its present signature. -/
def rekeyNow (ring : KeyRing) (id : UserId) : Work Unit := do
  let user ← requireUser ring id
  discard <| rekey ring id user.stamp.signature

/-- Brings every user to the current key; gives how many were not there. -/
def rekeyStale (ring : KeyRing) : Work Nat := do
  let stale ← staleUsers ring
  stale.forM fun id => rekeyNow ring id
  return stale.length

/-- The entries of the trail that a filter asks for. -/
def trail (filter : TrailFilter) : Work (List Entry) :=
  Work.ask fun tables => tables.entries filter

def trailOfOrg (id : OrgId) : Work (List Entry) :=
  trail (.ofRecord .org id.bare)

def trailOfUser (id : UserId) : Work (List Entry) :=
  trail (.ofRecord .user id.bare)

/-- The number of entries of the trail. -/
def trailSize : Work Nat :=
  Work.ask fun tables => .ok tables.trail.length

end SealedDirectory.Directory
