import SealedDirectory.Proofs.Directory.Request
import Mathlib.Data.List.Chain

/-!
# Runs of the directory

A run is a list of events in a session: requests and queries, each with a key ring of
its own, and openings of the store by a new process.  Requests that fail are part of a
run like all others.  Nothing is assumed about the source of the session, so the clock
may step back and identifiers may repeat.

The history of a run lists what its accepted requests did to records: which were
inserted and with what in their rows, and which were changed, under which signature and
to which one.
-/

namespace SealedDirectory

/-! ## Deeds -/

/-- What an accepted request did to one record. -/
inductive Deed where
  /-- The record was inserted under a signature, with this in its row. -/
  | inserted (sight : Sight) (row : Contents)
  /-- The record was changed under an expected signature and got another one. -/
  | changed (sight : Sight) (signature : Signature)

namespace Deed

/-- The record, under the signature that it was inserted with or that was expected. -/
def sight : Deed → Sight
  | .inserted sight _ => sight
  | .changed sight _ => sight

/-- The signature that the deed gave to the record. -/
def signature : Deed → Signature
  | .inserted sight _ => sight.signature
  | .changed _ signature => signature

/-- Whether the deed was done to a record. -/
def concerns (kind : RecordKind) (id : Uuid) (deed : Deed) : Bool :=
  deed.sight.kind = kind ∧ deed.sight.id = id

def isInsertion : Deed → Bool
  | .inserted _ _ => true
  | .changed _ _ => false

/-- Whether the deed changed a record under a signature. -/
def changes (sight : Sight) : Deed → Bool
  | .inserted _ _ => false
  | .changed expected _ => expected = sight

theorem concerns_of_changes {deed : Deed} {sight : Sight}
    (changes : deed.changes sight = true) :
    deed.concerns sight.kind sight.id = true := by
  cases deed with
  | inserted expected row => cases changes
  | changed expected signature =>
      rw [Deed.changes, decide_eq_true_eq] at changes
      subst changes
      simp [concerns, Deed.sight]

/-- A deed that changes a record under the signature that an earlier deed gave to it. -/
def Follows (next earlier : Deed) : Prop :=
  next.isInsertion = false ∧ next.sight.signature = earlier.signature

/--
The deeds done to one record form a chain: first the insertion, and then changes of
which each expects the signature that the deed before it gave.
-/
structure IsChain (deeds : List Deed) : Prop where
  /-- Nothing is done to a record before it is inserted. -/
  first : ∀ deed ∈ deeds.head?, deed.isInsertion = true
  linked : deeds.IsChain fun earlier next => next.Follows earlier

end Deed

/-- The insertion of a record whose row is in the tables. -/
def Tables.insertion (tables : Tables) (sight : Sight) : Deed :=
  .inserted sight ((tables.contents? sight.kind sight.id).getD [])

/--
What a request that was accepted between two sessions did to records.  The owner of a
new organization is inserted before it and promoted after it.
-/
def Request.deedsOf (ring : KeyRing) (before after : Session) (request : Request) :
    Response → List Deed
  | .created created =>
      match request with
      | .createOrg new =>
          match (Directory.insertOrg ring (Text.trim new.name) new).runIn before with
          | (.ok inserted, middle) =>
              [middle.tables.insertion inserted.owner.sight,
               middle.tables.insertion inserted.org.sight,
               .changed inserted.owner.sight created.owner.stamp.signature]
          | (.error _, _) => []
      | _ => []
  | .added user => [after.tables.insertion user.sight]
  | .changedOrg mutation =>
      request.target?.toList.map fun sight => .changed sight mutation.record.stamp.signature
  | .changedUser mutation =>
      request.target?.toList.map fun sight => .changed sight mutation.record.stamp.signature

/-- What a request does to records in a session; nothing if it fails. -/
def Request.deeds (ring : KeyRing) (session : Session) (request : Request) : List Deed :=
  match (request.perform ring).runIn session with
  | (.ok response, after) => request.deedsOf ring session after response
  | (.error _, _) => []

/-! ## Events -/

inductive Event where
  /-- A request is performed with a key ring. -/
  | performed (ring : KeyRing) (request : Request)
  /-- A query is answered with a key ring. -/
  | answered (ring : KeyRing) (query : Query)
  /-- The process ends, and another one opens the store. -/
  | reopened

namespace Event

def step (session : Session) : Event → Session
  | .performed ring request => ((request.perform ring).runIn session).2
  | .answered ring query => ((query.perform ring).runIn session).2
  | .reopened => session.reopened

def deeds (session : Session) : Event → List Deed
  | .performed ring request => request.deeds ring session
  | .answered _ _ => []
  | .reopened => []

/-- The records that an event shows to its caller. -/
def sights (session : Session) : Event → List Sight
  | .performed ring request =>
      match ((request.perform ring).runIn session).1 with
      | .ok response => response.sights
      | .error _ => []
  | .answered ring query =>
      match ((query.perform ring).runIn session).1 with
      | .ok sights => sights
      | .error _ => []
  | .reopened => []

variable
  {ring : KeyRing}
  {request : Request}
  {response : Response}
  {session after : Session}

theorem step_performed (given : (request.perform ring).Gives session response after) :
    (performed ring request).step session = after := by
  rw [Work.Gives] at given
  simp only [step, given]

theorem deeds_performed (given : (request.perform ring).Gives session response after) :
    (performed ring request).deeds session = request.deedsOf ring session after response := by
  rw [Work.Gives] at given
  simp only [deeds, Request.deeds, given]

theorem sights_performed (given : (request.perform ring).Gives session response after) :
    (performed ring request).sights session = response.sights := by
  rw [Work.Gives] at given
  simp only [sights, given]

end Event

namespace Session

/-- The session after a list of events. -/
def after (session : Session) (events : List Event) : Session :=
  events.foldl Event.step session

/-- What a list of events does to records. -/
def history (session : Session) : List Event → List Deed
  | [] => []
  | event :: events => event.deeds session ++ (event.step session).history events

@[simp]
theorem after_nil (session : Session) : session.after [] = session := rfl

@[simp]
theorem after_cons (session : Session) (event : Event) (events : List Event) :
    session.after (event :: events) = (event.step session).after events := rfl

theorem after_append (session : Session) (earlier later : List Event) :
    session.after (earlier ++ later) = (session.after earlier).after later := by
  simp [after]

/-- A process that opens an empty store. -/
def founded (source : Source) : Session :=
  .opened .empty source

end Session

end SealedDirectory
