import SealedDirectory.Directory.Mutation
import SealedDirectory.Proofs.Directory.Kept
import SealedDirectory.Proofs.Directory.Request

/-!
# How requests end

Every request is all or nothing: after some checks it is one transaction.  What it does
inside of it is orderly: nothing touches the memory of the sequences except by drawing
numbers, and a number that is drawn is stored before the request succeeds.
-/

namespace SealedDirectory

namespace Work

variable {R : Type} [Versioned R]

theorem orderly_load (ring : KeyRing) (id : Id (Versioned.idKind R)) :
    (load ring id : Work R).Orderly := by
  apply (orderly_ask _).bind
  intro found
  cases found with
  | none => exact orderly_throw _
  | some record => exact orderly_pure record

theorem orderly_restamped (before after : R) : (restamped before after).Orderly :=
  orderly_now.bind fun _ => (orderly_freshId _).bind fun _ => orderly_pure _

/-- An entry is stored under the number that was drawn for it. -/
theorem orderly_noteChange (before after : R) (time : Int) (change : String × Details) :
    (noteChange before after time change).Orderly where
  bySteps := by
    apply (bySteps_nextNumber _).bind
    intro number
    exact ((orderly_execute fun _ _ => .insertEntry).bind fun _ => orderly_pure _).bySteps
  stores := by
    intro session value later given stored
    simp only [noteChange, gives_bind, gives_nextNumber, gives_execute, gives_pure] at given
    obtain ⟨number, _, ⟨known, -, rfl, rfl⟩, -, _, ⟨tables, inserts, rfl⟩, -, rfl⟩ := given
    exact stored.of_one rfl (.insertEntry inserts) (Tables.covers_insertEntry inserts)

theorem orderly_note (before after : R) : (note before after).Orderly :=
  orderly_now.bind fun time => .mapM (orderly_noteChange before after time) _

/-- The last steps of a change, after the record is written. -/
theorem orderly_recorded (before after : R) :
    Orderly (do
      let stamp := Versioned.stamp after
      execute fun tables => tables.register stamp.signature (Versioned.kind R) stamp.changed
      let entries ← note before after
      return ({ record := after, entries } : Mutation R)) :=
  (orderly_execute fun _ _ => .register).bind fun _ => (orderly_note before after).bind fun _ =>
    orderly_pure _

theorem orderly_mutate
    [Kept R] (ring : KeyRing) (id : Id (Versioned.idKind R)) (expected : Signature)
    {change : R → Work R}
    (changes : ∀ record, (change record).Orderly) :
    (mutate ring id expected change).Orderly := by
  apply (orderly_load ring id).bind
  intro before
  have rest : Orderly (do
      let changed ← change before
      let after ← restamped before (Versioned.prepared ring changed)
      if !(← Versioned.overwrite ring after expected) then
        let current : R ← load ring id
        throw (staleFault id expected (Versioned.stamp current).signature)
      let stamp := Versioned.stamp after
      execute fun tables => tables.register stamp.signature (Versioned.kind R) stamp.changed
      let entries ← note before after
      return ({ record := after, entries } : Mutation R)) := by
    apply (changes before).bind
    intro changed
    apply (orderly_restamped _ _).bind
    intro after
    apply (Kept.orderly ring after expected).bind
    intro written
    apply Orderly.ite
    · apply (orderly_load ring id).bind
      intro current
      exact (orderly_throw _).bind fun _ => orderly_recorded before after
    · exact orderly_recorded before after
  apply Orderly.ite
  · exact (orderly_throw _).bind fun _ => rest
  · exact rest

end Work

open Work

namespace Directory

/-- A new record is stamped with a number above all that the store knows of. -/
structure Stamped (before after : Session) (stamp : Stamp) : Prop where
  tables : after.tables = before.tables
  handed : after.handed = (.entity, stamp.order) :: before.handed
  above : ∃ stored, before.tables.highest .entity = .ok stored ∧ stored < stamp.order

theorem initialStamp_gives
    {status : Status} {role : Role} {stamp : Stamp} {before after : Session}
    (given : (initialStamp status role).Gives before stamp after) :
    Stamped before after stamp := by
  simp only [initialStamp, gives_bind, gives_nextNumber, gives_now, gives_freshId,
    gives_pure] at given
  obtain ⟨number, _, ⟨stored, known, rfl, rfl⟩, time, _, ⟨-, rfl⟩, signature, _, ⟨-, rfl⟩, rfl,
    rfl⟩ := given
  exact ⟨rfl, rfl, stored, known, Marks.stored_lt_draw _ .entity stored⟩

theorem bySteps_initialStamp (status : Status) (role : Role) :
    (initialStamp status role).BySteps :=
  (bySteps_nextNumber _).bind fun _ =>
    (orderly_now.bind fun _ => (orderly_freshId _).bind fun _ => orderly_pure _).bySteps

/-- A user is stored under the number that was drawn for it. -/
theorem orderly_insertUser (ring : KeyRing) (org : OrgId) (new : NewUser) :
    (insertUser ring org new).Orderly where
  bySteps := by
    have inserts (user : User) : (user.insert ring).Orderly :=
      (user.orderly_sealTexts ring).bind fun _ => orderly_execute fun _ _ => .insertUser
    apply (orderly_freshId _).bySteps.bind
    intro id
    apply (bySteps_initialStamp _ _).bind
    intro stamp
    exact ((inserts _).bind fun _ => (orderly_execute fun _ _ => .register).bind fun _ =>
      orderly_pure _).bySteps
  stores := by
    intro before user after given stored
    simp only [insertUser, User.insert, gives_bind, gives_freshId, gives_execute,
      gives_pure] at given
    obtain ⟨id, _, ⟨-, rfl⟩, stamp, _, stamps, -, _, ⟨texts, _, seals, tables, inserts, rfl⟩,
      -, _, ⟨final, registers, rfl⟩, rfl, rfl⟩ := given
    have stamped := initialStamp_gives stamps
    rcases User.sealTexts_gives seals with ⟨sameTables, sameHanded, -⟩
    rw [sameTables, stamped.tables] at inserts
    refine stored.of_one (sameHanded.trans stamped.handed) ?_ ?_
    · exact (Tables.Keeps.insertUser inserts).trans (.register registers)
    · exact (Tables.Keeps.register registers).covers _ _ (Tables.covers_insertUser inserts)

/-- An organization is stored under the number that was drawn for it after its owner's. -/
theorem orderly_insertOrg (ring : KeyRing) (name : String) (new : NewOrg) :
    (insertOrg ring name new).Orderly where
  bySteps := by
    apply (orderly_freshId _).bySteps.bind
    intro id
    apply (orderly_insertUser ring id new.owner).bySteps.bind
    intro owner
    apply (bySteps_initialStamp _ _).bind
    intro stamp
    exact ((orderly_require _ _).bind fun _ => (orderly_execute fun _ _ => .insertOrg).bind
      fun _ => (orderly_execute fun _ _ => .register).bind fun _ => orderly_pure _).bySteps
  stores := by
    intro before created after given stored
    simp only [insertOrg, gives_bind, gives_freshId, gives_execute, gives_require,
      gives_pure] at given
    obtain ⟨id, _, ⟨-, rfl⟩, owner, middle, insertsOwner, stamp, _, stamps, -, _, ⟨-, rfl⟩,
      -, _, ⟨tables, inserts, rfl⟩, -, _, ⟨final, registers, rfl⟩, rfl, rfl⟩ := given
    have storedOwner := (orderly_insertUser ring id new.owner).stores _ _ _ insertsOwner stored
    have stamped := initialStamp_gives stamps
    rw [stamped.tables] at inserts
    refine storedOwner.of_one stamped.handed ?_ ?_
    · exact (Tables.Keeps.insertOrg inserts).trans (.register registers)
    · exact (Tables.Keeps.register registers).covers _ _ (Tables.covers_insertOrg inserts)

theorem orderly_promoteOwner (ring : KeyRing) (created : CreatedOrg) :
    (promoteOwner ring created).Orderly :=
  (orderly_mutate ring _ _ fun _ => orderly_pure _).bind fun _ => orderly_pure _

theorem orderly_requireMember (user : UserId) (org : OrgId) :
    (requireMember user org).Orderly := by
  apply (orderly_ask _).bind
  intro found
  cases found with
  | none => exact orderly_throw _
  | some other => exact .ite (orderly_throw _) (orderly_pure _)

variable {ring : KeyRing} {before : Session}

theorem ends_createOrg (new : NewOrg) : (createOrg ring new).Ends before := by
  apply Ends.require
  apply Ends.require
  apply Orderly.ends_transaction
  exact (orderly_insertOrg ring _ new).bind fun _ => orderly_promoteOwner ring _

theorem ends_createUser (org : OrgId) (new : NewUser) :
    (createUser ring org new).Ends before := by
  apply Ends.require
  apply Orderly.ends_transaction
  apply (orderly_ask _).bind
  intro found
  apply Orderly.ite
  · exact (orderly_throw _).bind fun _ => orderly_insertUser ring org new
  · exact orderly_insertUser ring org new

theorem ends_changeOrg
    (id : OrgId) (expected : Signature) {change : Org → Work Org}
    (changes : ∀ org, (change org).Orderly) :
    (changeOrg ring id expected change).Ends before := by
  unfold changeOrg
  apply Orderly.ends_transaction
  exact orderly_mutate (R := Org) ring id expected changes

theorem ends_setOwner (id : OrgId) (expected : Signature) (owner : UserId) :
    (setOwner ring id expected owner).Ends before := by
  unfold setOwner
  apply Orderly.ends_transaction
  apply (orderly_requireMember owner id).bind
  intro member
  exact orderly_mutate (R := Org) ring id expected fun _ => orderly_pure _

theorem ends_changeUser (id : UserId) (expected : Signature) (change : User → User) :
    (changeUser ring id expected change).Ends before := by
  unfold changeUser
  apply Orderly.ends_transaction
  apply orderly_mutate (R := User) ring id expected
  intro user
  exact (orderly_require _ _).bind fun _ => orderly_pure _

end Directory

theorem Request.ends (ring : KeyRing) (request : Request) (before : Session) :
    (request.perform ring).Ends before := by
  cases request with
  | createOrg new => exact (Directory.ends_createOrg new).map
  | createUser org new => exact (Directory.ends_createUser org new).map
  | setOrgStatus id expected status =>
      exact (Directory.ends_changeOrg id expected fun _ => orderly_pure _).map
  | setOwner id expected owner => exact (Directory.ends_setOwner id expected owner).map
  | renameOrg id expected name =>
      apply Ends.map
      apply Directory.ends_changeOrg id expected
      intro org
      exact (orderly_require _ _).bind fun _ => orderly_pure _
  | setDisplayName id expected name => exact (Directory.ends_changeUser id expected _).map
  | setPublicKey id expected key => exact (Directory.ends_changeUser id expected _).map
  | setEmail id expected email => exact (Directory.ends_changeUser id expected _).map
  | setPassword id expected encoded => exact (Directory.ends_changeUser id expected _).map
  | setUserStatus id expected status => exact (Directory.ends_changeUser id expected _).map
  | rekey id expected => exact (Directory.ends_changeUser id expected _).map

end SealedDirectory
