import SealedDirectory.Proofs.Directory.Reach
import Mathlib.Data.List.Nodup

/-!
# Signatures are issued once

Whatever identifiers the source of a run repeats, no signature is issued twice in it.  The
registry holds every signature together with the kind of record that it was issued for, and
a deed that would issue one again fails.  The tables themselves would allow an organization
and a user to share a signature, and a record to get back one that it has lost.

So the registry grows by one row with every deed, and an accepted request does three deeds if
it creates an organization and one deed otherwise.
-/

namespace SealedDirectory

/-! ## What accepted requests answer -/

namespace Response

/-- The signatures that a response gives to its caller. -/
def signatures (response : Response) : List Signature :=
  response.sights.map Sight.signature

/-- Whether an organization was created. -/
def isCreation : Response → Bool
  | .created _ => true
  | .added _ | .changedOrg _ | .changedUser _ => false

/-- Whether a user was added to an organization. -/
def isAddition : Response → Bool
  | .added _ => true
  | .created _ | .changedOrg _ | .changedUser _ => false

/-- Whether a record was changed. -/
def isChange : Response → Bool
  | .changedOrg _ | .changedUser _ => true
  | .created _ | .added _ => false

/-- The number of signatures that are issued for these responses. -/
def issued (responses : List Response) : Nat :=
  3 * responses.countP isCreation + responses.countP isAddition + responses.countP isChange

theorem issued_append (earlier later : List Response) :
    issued (earlier ++ later) = issued earlier + issued later := by
  simp only [issued, List.countP_append]
  omega

end Response

/-- The response to a request, if it is accepted. -/
def Event.responses (session : Session) : Event → List Response
  | .performed ring request =>
      match ((request.perform ring).runIn session).1 with
      | .ok response => [response]
      | .error _ => []
  | .answered _ _ => []
  | .reopened => []

/-- The responses to the accepted requests of a run. -/
def Session.responses (session : Session) : List Event → List Response
  | [] => []
  | event :: events => event.responses session ++ (event.step session).responses events

/-! ## Responses and deeds -/

namespace Request

variable {ring : KeyRing} {request : Request} {response : Response} {before after : Session}

/--
What an accepted request tells is issued by its deeds, of which there are three if it
creates an organization and one otherwise.
-/
structure Issues (deeds : List Deed) (responses : List Response) : Prop where
  told : (responses.flatMap Response.signatures).Sublist (deeds.map Deed.signature)
  counted : deeds.length = Response.issued responses

theorem Issues.append
    {earlier later : List Deed}
    {first second : List Response}
    (before : Issues earlier first)
    (after : Issues later second) :
    Issues (earlier ++ later) (first ++ second) where
  told := by
    rw [List.flatMap_append, List.map_append]
    exact before.told.append after.told
  counted := by
    rw [List.length_append, before.counted, after.counted, Response.issued_append]

theorem createOrg_issues
    {new : NewOrg}
    {created : CreatedOrg}
    (given : (Directory.createOrg ring new).Gives before created after) :
    Issues ((createOrg new).deedsOf ring before after (.created created)) [.created created] := by
  rcases Directory.createOrg_gives given with ⟨inserted, middle, final, inserts, promotes, -⟩
  rcases Directory.promoteOwner_gives promotes with ⟨promotion, -, rfl⟩
  rw [deedsOf_createOrg inserts]
  exact ⟨List.sublist_cons_self _ _, rfl⟩

theorem issues (given : (request.perform ring).Gives before response after) :
    Issues (request.deedsOf ring before after response) [response] := by
  cases request with
  | createOrg new =>
      simp only [perform, Work.gives_bind, Work.gives_pure] at given
      rcases given with ⟨created, _, creates, rfl, rfl⟩
      exact createOrg_issues creates
  | createUser _ _ | setOrgStatus _ _ _ | setOwner _ _ _ | renameOrg _ _ _
  | setDisplayName _ _ _ | setPublicKey _ _ _ | setEmail _ _ _ | setPassword _ _ _
  | setUserStatus _ _ _ | rekey _ _ =>
      simp only [perform, Work.gives_bind, Work.gives_pure] at given
      rcases given with ⟨_, _, -, rfl, -⟩
      exact ⟨.refl _, rfl⟩

end Request

open Request

theorem Event.issues (event : Event) (session : Session) :
    Issues (event.deeds session) (event.responses session) := by
  cases event with
  | performed ring request =>
      rcases ran : (request.perform ring).runIn session with ⟨outcome, after⟩
      cases outcome with
      | ok response =>
          rw [deeds_performed ran]
          simp only [responses, ran]
          exact Request.issues ran
      | error fault =>
          simp only [deeds, Request.deeds, responses, ran]
          exact ⟨.refl _, rfl⟩
  | answered ring query => exact ⟨.refl _, rfl⟩
  | reopened => exact ⟨.refl _, rfl⟩

theorem Session.issues (session : Session) (events : List Event) :
    Issues (session.history events) (session.responses events) := by
  induction events generalizing session with
  | nil => exact ⟨.refl _, rfl⟩
  | cons event events ih => exact (event.issues session).append (ih (event.step session))

/-! ## The registry -/

namespace Tables

variable {before after : Tables} {deed : Deed} {deeds : List Deed}

/-- A deed adds its signature to the registry, for records of its kind. -/
theorem Undergoes.registry_eq (does : Undergoes before deed after) :
    ∃ time, after.registry =
      before.registry ++ [⟨.holds deed.signature, .holds deed.sight.kind, .holds time⟩] := by
  cases does with
  | inserted inserted =>
      rcases inserted.tables with ⟨time, rfl⟩
      refine ⟨time, ?_⟩
      rw [registering, registry_restore]
      rfl
  | changed replaced =>
      rcases replaced.tables with ⟨middle, time, ⟨⟨earlier, later, placed, rfl, apart⟩⟩, rfl⟩
      refine ⟨time, ?_⟩
      rw [noting, registering, registry_restore]
      rfl

theorem Evolves.length_registry (evolves : Evolves before deeds after) :
    after.registry.length = before.registry.length + deeds.length := by
  induction evolves with
  | done => rfl
  | rests idle next ih => rw [ih, idle.registry]
  | undergoes does next ih =>
      rcases does.registry_eq with ⟨time, grown⟩
      rw [ih, grown, List.length_append, List.length_singleton, List.length_cons]
      omega

/-- Deeds issue signatures that differ, and none that was issued before. -/
theorem Evolves.nodup_signatures (evolves : Evolves before deeds after) :
    (deeds.map Deed.signature).Nodup ∧
      ∀ deed ∈ deeds, ¬ before.Registered deed.signature := by
  induction evolves with
  | done => exact ⟨.nil, by simp⟩
  | rests idle next ih =>
      refine ⟨ih.1, fun deed done issued => ?_⟩
      exact ih.2 deed done ((idle.registered_iff _).mpr issued)
  | @undergoes before middle after deed deeds does next ih =>
      refine ⟨?_, ?_⟩
      · rw [List.map_cons, List.nodup_cons]
        refine ⟨fun again => ?_, ih.1⟩
        rcases List.mem_map.mp again with ⟨other, done, same⟩
        exact ih.2 other done ((does.registered_iff _).mpr (.inr same.symm))
      · intro other member
        rcases List.mem_cons.mp member with rfl | done
        · exact does.fresh
        · exact fun issued => ih.2 other done ((does.registered_iff _).mpr (.inl issued))

/-- A signature was issued for records of a kind. -/
def IssuedFor (tables : Tables) (kind : RecordKind) (signature : Signature) : Prop :=
  ∃ time, ⟨.holds signature, .holds kind, .holds time⟩ ∈ tables.registry

/-- The registry has the signature of every row, and every signature once. -/
structure Enrolled (tables : Tables) : Prop where
  issued : ∀ kind, ∀ row ∈ tables.rows kind, ∃ signature,
    kind.signatureCell row = .holds signature ∧ tables.IssuedFor kind signature
  once : (tables.registry.map SignatureRow.signature).Nodup

namespace Enrolled

theorem empty : Tables.empty.Enrolled where
  issued := by
    intro kind row member
    cases kind <;> cases member
  once := .nil

theorem rests (enrolled : before.Enrolled) (idle : Rests before after) : after.Enrolled where
  issued := by
    intro kind row member
    rw [idle.rows_eq] at member
    rcases enrolled.issued kind row member with ⟨signature, holds, time, issued⟩
    exact ⟨signature, holds, time, by rwa [idle.registry]⟩
  once := by
    rw [idle.registry]
    exact enrolled.once

theorem undergoes (enrolled : before.Enrolled) (does : Undergoes before deed after) :
    after.Enrolled := by
  rcases does.registry_eq with ⟨time, grown⟩
  constructor
  · intro kind row member
    rcases (does.altered kind).mem member with old | ⟨-, rfl, renewed⟩
    · rcases enrolled.issued kind row old with ⟨signature, holds, earlier, issued⟩
      refine ⟨signature, holds, earlier, ?_⟩
      rw [grown]
      exact List.mem_append_left _ issued
    · refine ⟨deed.signature, renewed, time, ?_⟩
      rw [grown]
      exact List.mem_append_right _ (List.mem_singleton_self _)
  · rw [grown, List.map_append, List.nodup_append']
    refine ⟨enrolled.once, List.nodup_singleton _, ?_⟩
    intro cell issued isNew
    rw [List.map_singleton, List.mem_singleton] at isNew
    subst isNew
    exact does.fresh (List.mem_map.mp issued)

theorem evolves (enrolled : before.Enrolled) (evolves : Evolves before deeds after) :
    after.Enrolled := by
  induction evolves with
  | done => exact enrolled
  | rests idle next ih => exact ih (enrolled.rests idle)
  | undergoes does next ih => exact ih (enrolled.undergoes does)

variable {tables : Tables} {kind other : RecordKind} {signature : Signature}

/-- A signature is found in the registry where it was registered, and nowhere else. -/
theorem find?_registry
    (enrolled : tables.Enrolled)
    {issued : SignatureRow}
    (member : issued ∈ tables.registry)
    (holds : issued.signature = .holds signature) :
    (tables.registry.find? fun row => row.signature = .holds signature) = some issued := by
  cases found : tables.registry.find? fun row => row.signature = .holds signature with
  | none =>
      have absent := List.find?_eq_none.mp found issued member
      simp [holds] at absent
  | some row =>
      have sameSignature : row.signature = issued.signature := by
        rw [holds]
        simpa using List.find?_some found
      rw [List.inj_on_of_nodup_map enrolled.once (List.mem_of_find?_eq_some found) member
        sameSignature]

theorem source?_eq
    (enrolled : tables.Enrolled)
    (issued : tables.IssuedFor kind signature) :
    tables.source? signature = .ok (some kind) := by
  rcases issued with ⟨time, member⟩
  rw [source?, enrolled.find?_registry member rfl]
  rfl

theorem kind_eq
    (enrolled : tables.Enrolled)
    (issued : tables.IssuedFor kind signature)
    (again : tables.IssuedFor other signature) :
    kind = other := by
  have same := (enrolled.source?_eq issued).symm.trans (enrolled.source?_eq again)
  simpa using same

/-- Organizations and users all have signatures of their own. -/
theorem nodup_current (enrolled : tables.Enrolled) (sound : tables.Sound) :
    (tables.orgs.map OrgRow.signature ++ tables.users.map UserRow.signature).Nodup := by
  refine List.nodup_append'.mpr ⟨?_, ?_, ?_⟩
  · exact List.pairwise_map.mpr (sound.separate .org)
  · exact List.pairwise_map.mpr (sound.separate .user)
  · intro cell ofOrg ofUser
    rcases List.mem_map.mp ofOrg with ⟨org, storedOrg, rfl⟩
    rcases List.mem_map.mp ofUser with ⟨user, storedUser, same⟩
    rcases enrolled.issued .org org storedOrg with ⟨signature, holds, issued⟩
    rcases enrolled.issued .user user storedUser with ⟨another, holdsToo, again⟩
    have shared : another = signature := Cell.holds.inj (holdsToo.symm.trans (same.trans holds))
    subst shared
    cases enrolled.kind_eq issued again

end Enrolled

end Tables

open Tables

/-! ## The main statement -/

/-- What a run has issued, by the tables that it reaches and by the answers that it gave. -/
structure IssuedOnce (tables : Tables) (responses : List Response) : Prop where
  distinct : (tables.orgs.map OrgRow.signature ++ tables.users.map UserRow.signature).Nodup
  registered : ∀ kind, ∀ row ∈ tables.rows kind, ∃ signature,
    kind.signatureCell row = .holds signature ∧ tables.IssuedFor kind signature ∧
      tables.source? signature = .ok (some kind)
  given : (responses.flatMap Response.signatures).Nodup
  counted : tables.registry.length =
    3 * responses.countP Response.isCreation + responses.countP Response.isAddition +
      responses.countP Response.isChange

/--
In every run from an empty store, whatever identifiers its source repeats: the signatures of
all organizations and users differ, each of them is registered for the kind of its record,
no signature is given by two accepted requests, and the registry has three rows for every
organization that was created and one for every user that was added and every change.
-/
theorem signatures_are_issued_once (source : Source) (events : List Event) :
    IssuedOnce ((Session.founded source).after events).tables
      ((Session.founded source).responses events) := by
  have founded := Session.sound_founded source
  have evolves := Session.evolves_after _ events founded
  have issues := Session.issues (.founded source) events
  have enrolled := (Enrolled.empty.rests (rests_founded .empty)).evolves evolves
  constructor
  · exact enrolled.nodup_current (evolves.sound founded)
  · intro kind row member
    rcases enrolled.issued kind row member with ⟨signature, holds, issued⟩
    exact ⟨signature, holds, issued, enrolled.source?_eq issued⟩
  · exact evolves.nodup_signatures.1.sublist issues.told
  · have empty : (Session.founded source).tables.registry = [] :=
      (rests_founded .empty).registry
    rw [evolves.length_registry, empty, issues.counted, List.length_nil, Nat.zero_add]
    rfl

end SealedDirectory
