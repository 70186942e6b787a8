import SealedDirectory.Proofs.Directory.Progress
import SealedDirectory.Proofs.Trail.Links
import SealedDirectory.Proofs.Trail.Spared

/-!
# The trail refuses nothing

No request ever fails because of columns of the trail that must be unique.  By the time a
change is noted, its new signature was accepted by the registry, and the old one was that
of a record up to this change; so the trail knows neither of them in this role.  It does not
matter whether the identifiers that are drawn repeat: a signature that was issued before is
refused by the registry, before anything is noted.
-/

namespace SealedDirectory

open Tables

/-- A signature in use and one that was never issued are not those of an entry. -/
theorem Tables.Traced.unnoted
    {tables : Tables}
    {entries : List Entry}
    {kind : RecordKind}
    {row : kind.Row}
    {old new : Signature}
    (traced : tables.Traced entries)
    (member : row ∈ tables.rows kind)
    (current : kind.signatureCell row = .holds old)
    (fresh : ¬ tables.Registered new)
    (columns : List String) :
    tables.Unnoted old new columns := by
  intro row inTrail _
  rw [traced.noted.trail] at inTrail
  rcases List.mem_map.mp inTrail with ⟨entry, listed, rfl⟩
  constructor
  · intro same
    exact traced.lost entry listed kind _ member (current.trans same.symm)
  · intro same
    apply fresh
    rw [← Cell.holds.inj same]
    exact (traced.newIssued entry listed).registered

/-! ## Changes -/

/-- Kinds of records that are found and written without a failure about the trail. -/
class SparesTrail
    (R : Type)
    [Versioned R] :
    Prop where
  find (tables : Tables) (ring : KeyRing) (id : Id (Versioned.idKind R)) :
    Spared (Versioned.find tables ring id : Except Fault (Option R))
  overwrite (ring : KeyRing) (record : R) (expected : Signature) (session : Session) :
    (Versioned.overwrite ring record expected).Spares session

theorem User.spares_sealTexts
    (ring : KeyRing)
    (user : User)
    (session : Session) :
    (user.sealTexts ring).Spares session := by
  by_cases current : user.keyVersion = ring.current
  · obtain ⟨texts, later, given, -⟩ := sealTexts_succeeds user session current
    exact given.spares
  · rw [User.sealTexts, if_pos current]
    exact (Work.spares_throw rfl session).bind fun _ _ never => (Work.gives_throw.mp never).elim

instance : SparesTrail Org where
  find := fun tables _ id => tables.spared_org? id
  overwrite := fun _ org expected session =>
    Work.spares_answer (fun tables => tables.spared_updateOrg org expected) session

instance : SparesTrail User where
  find := Tables.spared_user?
  overwrite := fun ring user expected session =>
    (user.spares_sealTexts ring session).bind fun texts middle _ =>
      Work.spares_answer (fun tables => tables.spared_updateUser user texts expected) middle

namespace Work

variable {R : Type} [Versioned R] [SparesTrail R] {session : Session}

theorem spares_load
    (ring : KeyRing)
    (id : Id (Versioned.idKind R))
    (session : Session) :
    (load ring id : Work R).Spares session := by
  apply (spares_ask (fun tables => SparesTrail.find tables ring id) session).bind
  intro found middle _
  cases found with
  | some record => exact spares_pure _ _
  | none => exact spares_throw rfl _

omit [SparesTrail R] in
/-- A change can be noted once its record was written and its new signature was issued. -/
theorem note_succeeds_of_written
    [Kept R]
    {ring : KeyRing}
    {loaded record : R}
    {entries : List Entry}
    {written registered : Session}
    (sound : session.tables.Sound)
    (traced : session.tables.Traced entries)
    (overwrites : (Versioned.overwrite ring record (Versioned.stamp loaded).signature).Gives
      session true written)
    (registers : (execute fun tables => tables.register (Versioned.stamp record).signature
      (Versioned.kind R) (Versioned.stamp record).changed).Gives written () registered) :
    ∃ noted after, (note loaded record).Gives registered noted after := by
  rcases Kept.overwritten overwrites with ⟨old, new, overwritten⟩
  have replaced := overwritten.overwritten
  rcases gives_execute.mp registers with ⟨tables, accepts, rfl⟩
  rcases register_eq_ok.mp accepts with ⟨fresh, rfl⟩
  rw [replaced.registered_iff] at fresh
  let noting : Session := { written with
    tables := written.tables.registering (Versioned.stamp record).signature
      (Versioned.kind R) (Versioned.stamp record).changed }
  have numbered : noting.tables.Numbered := overwritten.numbered sound
  -- What is noted is about a row that was just written and a signature that was just issued.
  have unnoted : ∀ columns, noting.tables.Unnoted (Versioned.stamp loaded).signature
      (Versioned.stamp record).signature columns := by
    intro columns row member
    have inTrail : row ∈ written.tables.trail := member
    rw [replaced.trail_eq] at inTrail
    exact traced.unnoted replaced.old_mem overwritten.guarded fresh columns row inTrail
  obtain ⟨noted, after, notes, -⟩ := note_succeeds numbered unnoted
  exact ⟨noted, after, notes⟩

/-- A change can fail, but not because of the trail. -/
theorem spares_mutate
    [Kept R]
    {ring : KeyRing}
    {id : Id (Versioned.idKind R)}
    {expected : Signature}
    {change : R → Work R}
    {entries : List Entry}
    (changes : ∀ record session, (change record).Spares session)
    (looks : LooksAtRecord change)
    (sound : session.tables.Sound)
    (traced : session.tables.Traced entries) :
    (mutate ring id expected change).Spares session := by
  have stops {fault : Fault} (other : fault.isTaken = false) {β : Type}
      (rest : PUnit → Work β) (session : Session) :
      ((throw fault : Work PUnit) >>= rest).Spares session :=
    (spares_throw other session).bind fun _ _ never => (gives_throw.mp never).elim
  apply (spares_load ring id session).bind
  intro loaded start loads
  obtain ⟨found, rfl⟩ := gives_load.mp loads
  refine Spares.ite (fun _ => stops rfl _ _) fun current => ?_
  apply (changes loaded start).bind
  intro changed middle given
  obtain rfl := looks _ _ _ _ given
  have restamps : ∃ record stamped, (restamped loaded (Versioned.prepared ring changed)).Gives
      middle record stamped := ⟨_, _, rfl⟩
  rcases restamps with ⟨_, _, restamps⟩
  apply restamps.spares.bind
  intro record stamped stamps
  have sameTables := (restamped_gives stamps).2.2
  apply (SparesTrail.overwrite ring record expected stamped).bind
  intro updated written overwrites
  refine Spares.ite (fun _ => ?_) fun succeeded => ?_
  · exact (spares_load ring id written).bind fun _ _ _ => stops rfl _ _
  · apply (spares_execute (fun tables => tables.spared_register _ _ _) written).bind
    intro _ registered registers
    refine Spares.bind ?_ fun _ _ _ => spares_pure _ _
    obtain rfl : updated = true := by simpa using succeeded
    obtain rfl := not_not.mp current
    rw [← sameTables] at sound traced
    rcases note_succeeds_of_written sound traced overwrites registers with ⟨_, _, notes⟩
    exact notes.spares

end Work

/-! ## Requests and queries -/

namespace Directory

variable {ring : KeyRing} {session : Session}

theorem spares_initialStamp
    (status : Status)
    (role : Role)
    (session : Session) :
    (initialStamp status role).Spares session :=
  (Work.spares_nextNumber _ session).bind fun _ _ _ =>
    (Work.now_succeeds _).spares.bind fun _ _ _ =>
      (Work.freshId_succeeds _ _).spares.bind fun _ _ _ => Work.spares_pure _ _

theorem spares_insertUser
    (ring : KeyRing)
    (org : OrgId)
    (new : NewUser)
    (session : Session) :
    (insertUser ring org new).Spares session := by
  have inserts (user : User) (session : Session) : (user.insert ring).Spares session :=
    (user.spares_sealTexts ring session).bind fun _ _ _ =>
      Work.spares_execute (fun tables => tables.spared_insertUser _) _
  refine (Work.freshId_succeeds session _).spares.bind fun _ _ _ => ?_
  refine (spares_initialStamp _ _ _).bind fun _ _ _ => ?_
  refine (inserts _ _).bind fun _ _ _ => ?_
  refine (Work.spares_execute (fun tables => tables.spared_register _ _ _) _).bind fun _ _ _ => ?_
  exact Work.spares_pure _ _

theorem spares_insertOrg
    (ring : KeyRing)
    (name : String)
    (new : NewOrg)
    (session : Session) :
    (insertOrg ring name new).Spares session := by
  refine (Work.freshId_succeeds session _).spares.bind fun _ _ _ => ?_
  refine (spares_insertUser _ _ _ _).bind fun _ _ _ => ?_
  refine (spares_initialStamp _ _ _).bind fun _ _ _ => ?_
  refine (Work.spares_require (fun _ => rfl) _ _).bind fun _ _ _ => ?_
  refine (Work.spares_execute (fun tables => tables.spared_insertOrg _) _).bind fun _ _ _ => ?_
  refine (Work.spares_execute (fun tables => tables.spared_register _ _ _) _).bind fun _ _ _ => ?_
  exact Work.spares_pure _ _

/-- The owner is promoted in a store that the new records have left traced. -/
theorem spares_createOrg
    {entries : List Entry}
    (new : NewOrg)
    (sound : session.tables.Sound)
    (traced : session.tables.Traced entries) :
    (createOrg ring new).Spares session := by
  refine (Work.spares_require (fun _ => rfl) _ session).bind fun _ first given => ?_
  obtain ⟨-, rfl⟩ := Work.gives_require.mp given
  refine (Work.spares_require (fun _ => rfl) _ first).bind fun _ second given => ?_
  obtain ⟨-, rfl⟩ := Work.gives_require.mp given
  apply Work.Spares.transaction
  apply (spares_insertOrg ring _ new second).bind
  intro inserted middle inserts
  rcases insertOrg_gives inserts with ⟨ownerTables, texts, owner, org, -⟩
  have soundOwner := (Undergoes.inserted owner).sound sound
  have soundThen := (Undergoes.inserted org).sound soundOwner
  have tracedThen := (traced.inserted owner sound).inserted org soundOwner
  refine Work.Spares.bind ?_ fun _ _ _ => Work.spares_pure _ _
  exact Work.spares_mutate (fun _ _ => Work.spares_pure _ _) (Work.looksAtRecord_pure _) soundThen
    tracedThen

theorem spares_createUser
    (org : OrgId)
    (new : NewUser)
    (session : Session) :
    (createUser ring org new).Spares session := by
  refine (Work.spares_require (fun _ => rfl) _ session).bind fun _ middle _ => ?_
  apply Work.Spares.transaction
  refine (Work.spares_ask (fun tables => tables.spared_org? org) middle).bind fun found _ _ => ?_
  refine Work.Spares.ite (fun _ => ?_) fun _ => spares_insertUser ring org new _
  exact (Work.spares_throw rfl _).bind fun _ _ _ => spares_insertUser ring org new _

theorem spares_requireMember
    (user : UserId)
    (org : OrgId)
    (session : Session) :
    (requireMember user org).Spares session := by
  have asks (tables : Tables) : Spared (tables.orgOfUser? user) :=
    .mapM_option fun row => row.org.spared_read _ _
  refine (Work.spares_ask asks session).bind fun found middle _ => ?_
  cases found with
  | none => exact Work.spares_throw rfl _
  | some known =>
      exact Work.Spares.ite (fun _ => Work.spares_throw rfl _) fun _ => Work.spares_pure _ _

theorem spares_changeUser
    {entries : List Entry}
    {id : UserId}
    {expected : Signature}
    (change : User → User)
    (sound : session.tables.Sound)
    (traced : session.tables.Traced entries) :
    (changeUser ring id expected change).Spares session :=
  Work.Spares.transaction <| Work.spares_mutate
    (fun _ _ => (Work.spares_require (fun _ => rfl) _ _).bind fun _ _ _ => Work.spares_pure _ _)
    (Work.looksAtRecord_require _ _ change) sound traced

end Directory

/-- No request fails because of the trail. -/
theorem Request.spares
    {session : Session}
    {entries : List Entry}
    (request : Request)
    (ring : KeyRing)
    (sound : session.tables.Sound)
    (traced : session.tables.Traced entries) :
    (request.perform ring).Spares session := by
  have answers {α : Type} {work : Work α} {seen : α → Response} (spares : work.Spares session) :
      Work.Spares (do return seen (← work)) session :=
    spares.bind fun _ _ _ => Work.spares_pure _ _
  cases request with
  | createOrg new => exact answers (Directory.spares_createOrg new sound traced)
  | createUser org new => exact answers (Directory.spares_createUser org new session)
  | setOrgStatus id expected status =>
      refine answers (Work.Spares.transaction (Work.spares_mutate ?_ ?_ sound traced))
      · exact fun _ _ => Work.spares_pure _ _
      · exact Work.looksAtRecord_pure _
  | setOwner id expected owner =>
      refine answers (Work.Spares.transaction ?_)
      apply (Directory.spares_requireMember owner id session).bind
      intro _ middle isMember
      obtain rfl := Directory.requireMember_gives isMember
      exact Work.spares_mutate (fun _ _ => Work.spares_pure _ _) (Work.looksAtRecord_pure _) sound
        traced
  | renameOrg id expected name =>
      refine answers (Work.Spares.transaction (Work.spares_mutate ?_ ?_ sound traced))
      · exact fun _ _ => (Work.spares_require (fun _ => rfl) _ _).bind fun _ _ _ =>
          Work.spares_pure _ _
      · exact Work.looksAtRecord_require _ _ _
  | setDisplayName _ _ _ | setPublicKey _ _ _ | setEmail _ _ _ | setPassword _ _ _
  | setUserStatus _ _ _ | rekey _ _ =>
      exact answers (Directory.spares_changeUser _ sound traced)

/-- No query fails because of the trail. -/
theorem Query.spares
    (query : Query)
    (ring : KeyRing)
    (session : Session) :
    (query.perform ring).Spares session := by
  have answers {α : Type} {question : Tables → Except Fault α} {seen : α → List Sight}
      (spared : ∀ tables, Spared (question tables)) :
      Work.Spares (do return seen (← Work.ask question)) session :=
    (Work.spares_ask spared session).bind fun _ _ _ => Work.spares_pure _ _
  cases query with
  | org id => exact answers fun tables => tables.spared_org? id
  | orgNamed name => exact answers fun _ => .mapM_option OrgRow.spared_toOrg
  | orgs => exact answers fun _ => .mapM OrgRow.spared_toOrg _
  | members group => exact answers fun tables => tables.spared_members ring group
  | user id => exact answers fun tables => tables.spared_user? ring id
  | findOrg text =>
      refine Work.Spares.bind ?_ fun _ _ _ => Work.spares_pure _ _
      refine (Work.spares_ask (fun _ => .mapM_option OrgRow.spared_toOrg) session).bind
        fun found middle _ => ?_
      cases found with
      | some org => exact Work.spares_pure _ _
      | none =>
          cases Id.parse .org text with
          | ok id => exact Work.spares_ask (fun tables => tables.spared_org? id) middle
          | error fault => exact Work.spares_pure _ _
  | requiredUser id =>
      exact (Work.spares_load (R := User) ring id session).bind fun _ _ _ => Work.spares_pure _ _

/-! ## The main statement -/

/--
In every run from an empty store: every entry of the trail is about a stored record and names
two signatures that were issued for its kind, of which no record has the old one any more;
entries that share a signature in one role tell of one change, and no change leads back to a
signature that was lost.  No request and no query fails because of the trail, whatever
identifiers its source repeats.
-/
theorem trail_is_linked_and_refuses_nothing
    (source : Source)
    (events : List Event) :
    (∃ entries, ((Session.founded source).after events).tables.Traced entries) ∧
      (∀ ring (request : Request),
        (request.perform ring).Spares ((Session.founded source).after events)) ∧
      ∀ ring (query : Query),
        (query.perform ring).Spares ((Session.founded source).after events) := by
  have evolves := Session.evolves_from_empty source events
  rcases Tables.Traced.empty.evolves evolves .empty .empty with ⟨entries, traced⟩
  have sound := evolves.sound .empty
  refine ⟨⟨entries, traced⟩, ?_, ?_⟩
  · intro ring request
    exact request.spares ring sound traced
  · intro ring query
    exact query.spares ring _

end SealedDirectory
