import SealedDirectory.Proofs.Directory.Run
import Mathlib.Logic.Function.Basic

/-!
# The directory in plain text

A directory without keys holds the texts of every user in the clear, and beside them the
version of the key that was current when the user was last written.  What an accepted
request does to it is read off the request and the identifiers in its answer.  Nothing
about ciphers, rows, digests or signatures is needed to say it.

New texts are taken as they come.  The changes of the display name, of the public key
and of the email address trim theirs, and every change of a user, whatever it is about,
brings the user to the current version.
-/

namespace SealedDirectory

structure PlainUser where
  org : OrgId
  displayName : String
  publicKey : String
  email : String
  password : String
  /-- The current version of the ring with which the user was last written. -/
  keyVersion : KeyVersion
  deriving DecidableEq, Repr

namespace PlainUser

def ofUser (user : User) : PlainUser :=
  { org := user.org
    displayName := user.displayName
    publicKey := user.publicKey
    email := user.email
    password := user.password
    keyVersion := user.keyVersion }

/-- A new member of an organization, written with a key ring. -/
def ofNew
    (org : OrgId)
    (new : NewUser)
    (ring : KeyRing) :
    PlainUser :=
  { org
    displayName := new.displayName
    publicKey := new.publicKey
    email := new.email
    password := new.password
    keyVersion := ring.current }

end PlainUser

/-- The users of a directory in plain text, by their identifiers. -/
abbrev PlainStore :=
  UserId → Option PlainUser

namespace PlainStore

def empty : PlainStore :=
  fun _ => none

def put
    (store : PlainStore)
    (id : UserId)
    (user : PlainUser) :
    PlainStore :=
  Function.update store id (some user)

/-- The store with a change of one user, who is under the current version then. -/
def rewrite
    (store : PlainStore)
    (ring : KeyRing)
    (id : UserId)
    (edit : PlainUser → PlainUser) :
    PlainStore :=
  Function.update store id
    ((store id).map fun user => { edit user with keyVersion := ring.current })

end PlainStore

/-- What a request that was accepted with a response does to the plain store. -/
def Request.plainly
    (ring : KeyRing)
    (store : PlainStore)
    (request : Request)
    (response : Response) :
    PlainStore :=
  match request, response with
  | .createOrg new, .created created =>
      store.put created.owner.id (.ofNew created.org.id new.owner ring)
  | .createUser org new, .added user => store.put user.id (.ofNew org new ring)
  | .setDisplayName id _ name, _ =>
      store.rewrite ring id fun user => { user with displayName := Text.trim name }
  | .setPublicKey id _ key, _ =>
      store.rewrite ring id fun user => { user with publicKey := Text.trim key }
  | .setEmail id _ email, _ =>
      store.rewrite ring id fun user => { user with email := Text.trim email }
  | .setPassword id _ encoded, _ =>
      store.rewrite ring id fun user => { user with password := encoded }
  | .setUserStatus id _ _, _ | .rekey id _, _ => store.rewrite ring id fun user => user
  | _, _ => store

/-- What an event does to the plain store; only accepted requests do anything. -/
def Event.plainly
    (session : Session)
    (store : PlainStore) :
    Event → PlainStore
  | .performed ring request =>
      match ((request.perform ring).runIn session).1 with
      | .ok response => request.plainly ring store response
      | .error _ => store
  | .answered _ _ | .reopened => store

theorem Event.plainly_performed
    {ring : KeyRing}
    {request : Request}
    {response : Response}
    {session after : Session}
    (store : PlainStore)
    (given : (request.perform ring).Gives session response after) :
    (performed ring request).plainly session store = request.plainly ring store response := by
  rw [Work.Gives] at given
  simp only [plainly, given]

/-- The plain store after a list of events. -/
def Session.plain
    (session : Session)
    (store : PlainStore) :
    List Event → PlainStore
  | [] => store
  | event :: events => (event.step session).plain (event.plainly session store) events

/-- The key rings that requests are performed with. -/
def Event.writers : Event → List KeyRing
  | .performed ring _ => [ring]
  | .answered _ _ | .reopened => []

/-- Any two of the rings have the same key under every version that both have. -/
def KeyRing.Agree (rings : List KeyRing) : Prop :=
  ∀ ring ∈ rings, ∀ other ∈ rings, ∀ version,
    ring.contains version = true → other.contains version = true →
      ring.get version = other.get version

theorem KeyRing.Agree.mono
    {rings some : List KeyRing}
    (agree : KeyRing.Agree rings)
    (among : some ⊆ rings) :
    KeyRing.Agree some :=
  fun ring member other otherMember => agree ring (among member) other (among otherMember)

end SealedDirectory
