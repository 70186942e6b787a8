import SealedDirectory.Proofs.Directory.Rewriting
import SealedDirectory.Proofs.Directory.Ruling
import SealedDirectory.Proofs.Directory.Step

/-!
# Everything that the creation of an organization does

An organization is created in three steps within one transaction: its owner is inserted
unconfirmed, it is inserted itself, and its owner is promoted by an ordinary change.  What
is left of the three is one row for each of the two records, three signatures in the
registry and one entry of the trail; nothing else in the store has changed.  That the owner
was unconfirmed for a while can be seen in the registry and in the trail, and nowhere else.

Nothing is assumed about what is drawn.  If an identifier were drawn that is taken, the
creation would not be accepted.
-/

namespace SealedDirectory

open Tables

/-! ## What is added -/

/-- The tables with the rows that the creation of an organization adds to them. -/
def Tables.establishing
    (tables : Tables)
    (created : CreatedOrg)
    (unconfirmed : User)
    (texts : SealedTexts)
    (entry : Entry) :
    Tables :=
  { tables with
    orgs := tables.orgs ++ [OrgRow.ofOrg created.org]
    users := tables.users ++ [UserRow.ofUser created.owner texts]
    trail := tables.trail ++ [EntryRow.ofEntry entry]
    registry := tables.registry ++
      [⟨.holds unconfirmed.stamp.signature, .holds .user, .holds unconfirmed.stamp.created⟩,
       ⟨.holds created.org.stamp.signature, .holds .org, .holds created.org.stamp.created⟩,
       ⟨.holds created.owner.stamp.signature, .holds .user,
        .holds created.owner.stamp.changed⟩] }

section

variable
  (tables : Tables)
  (created : CreatedOrg)
  (unconfirmed : User)
  (texts : SealedTexts)
  (entry : Entry)

theorem Tables.rows_org_establishing :
    (tables.establishing created unconfirmed texts entry).rows .org =
      tables.orgs ++ [OrgRow.ofOrg created.org] :=
  rfl

theorem Tables.rows_user_establishing :
    (tables.establishing created unconfirmed texts entry).rows .user =
      tables.users ++ [UserRow.ofUser created.owner texts] :=
  rfl

end

/-- The user that is asked for, under an identifier, in an organization and with a stamp. -/
def NewUser.made
    (new : NewUser)
    (ring : KeyRing)
    (id : UserId)
    (org : OrgId)
    (stamp : Stamp) :
    User :=
  { id, org
    displayName := new.displayName
    publicKey := new.publicKey
    email := new.email
    keyVersion := ring.current
    password := new.password
    stamp }

/-- The user as it is after it was made active at a time and under a signature. -/
def User.promoted
    (user : User)
    (changed : Int)
    (signature : Signature) :
    User :=
  { user with stamp := { user.stamp with changed, signature, status := .active } }

/-- The entry that tells how the owner of a new organization became active. -/
def Entry.ofPromotion
    (unconfirmed owner : User)
    (order time : Int) :
    Entry :=
  { kind := .user
    entity := owner.id.bare
    column := "status"
    oldTime := unconfirmed.stamp.changed
    newTime := owner.stamp.changed
    oldSignature := unconfirmed.stamp.signature
    newSignature := owner.stamp.signature
    details := { old := .integer 1, new := .integer 2 }
    order
    time }

/-- The entry of a promotion is read back from its row. -/
theorem EntryRow.toEntry_ofPromotion
    (unconfirmed owner : User)
    (order time : Int) :
    (ofEntry (.ofPromotion unconfirmed owner order time)).toEntry =
      .ok (.ofPromotion unconfirmed owner order time) := by
  have unconfirmedCode : Json.Reader.Plain (.integer 1) := .integer ⟨by decide, by decide⟩
  have activeCode : Json.Reader.Plain (.integer 2) := .integer ⟨by decide, by decide⟩
  exact toEntry_ofEntry (Details.Plain.legible ⟨unconfirmedCode, activeCode⟩)

namespace Directory

variable {ring : KeyRing} {before after : Session}

/-! ## Insertions -/

/-- A stamp that is made now was never renewed, and it has what is asked for and layout 0. -/
theorem initialStamp_eq
    {status : Status}
    {role : Role}
    {stamp : Stamp}
    (given : (initialStamp status role).Gives before stamp after) :
    stamp = { stamp with changed := stamp.created, status, role, layout := 0 } := by
  simp only [initialStamp, Work.gives_bind, Work.gives_pure] at given
  obtain ⟨order, _, -, time, _, -, signature, _, -, rfl, -⟩ := given
  rfl

/-- What an insertion of a user adds to the tables. -/
structure AddsUser
    (ring : KeyRing)
    (org : OrgId)
    (new : NewUser)
    (user : User)
    (texts : SealedTexts)
    (before after : Tables) :
    Prop where
  made : user = new.made ring user.id org
    { user.stamp with
      changed := user.stamp.created
      status := .unconfirmed
      role := new.role
      layout := 0 }
  sealedFor : texts.SealedFor ring user
  tables : after = { before with
    users := before.users ++ [UserRow.ofUser user texts]
    registry := before.registry ++
      [⟨.holds user.stamp.signature, .holds .user, .holds user.stamp.created⟩] }

theorem insertUser_adds
    {org : OrgId}
    {new : NewUser}
    {user : User}
    (given : (insertUser ring org new).Gives before user after) :
    ∃ texts, AddsUser ring org new user texts before.tables after.tables := by
  simp only [insertUser, User.insert, Work.gives_bind, Work.gives_freshId, Work.gives_execute,
    Work.gives_pure] at given
  obtain ⟨id, _, ⟨-, rfl⟩, stamp, stamped, stamps, -, _, ⟨texts, sealedSession, seals, tables,
    inserts, rfl⟩, -, _, ⟨final, registers, rfl⟩, rfl, rfl⟩ := given
  have sameStamp := (initialStamp_gives stamps).tables
  obtain ⟨sameSealed, -, sealedFor⟩ := User.sealTexts_gives seals
  obtain ⟨-, rfl⟩ := register_eq_ok.mp registers
  simp only [Tables.insertUser, bind_eq_ok, insertRow_eq_ok] at inserts
  obtain ⟨rows, ⟨-, rfl⟩, last⟩ := inserts
  cases last
  refine ⟨texts, congrArg (new.made ring id org) (initialStamp_eq stamps), sealedFor, ?_⟩
  rw [sameSealed, sameStamp]
  rfl

/-- What the insertion of an organization and its owner adds to the tables. -/
structure AddsOrg
    (ring : KeyRing)
    (name : String)
    (new : NewOrg)
    (created : CreatedOrg)
    (texts : SealedTexts)
    (before after : Tables) :
    Prop where
  made : created.org =
    { id := created.org.id
      name
      owner := created.owner.id
      stamp := { created.org.stamp with
        changed := created.org.stamp.created
        status := new.status
        role := new.role
        layout := 0 } }
  owner : created.owner = new.owner.made ring created.owner.id created.org.id
    { created.owner.stamp with
      changed := created.owner.stamp.created
      status := .unconfirmed
      role := new.owner.role
      layout := 0 }
  sealedFor : texts.SealedFor ring created.owner
  tables : after = { before with
    orgs := before.orgs ++ [OrgRow.ofOrg created.org]
    users := before.users ++ [UserRow.ofUser created.owner texts]
    registry := before.registry ++
      [⟨.holds created.owner.stamp.signature, .holds .user, .holds created.owner.stamp.created⟩,
       ⟨.holds created.org.stamp.signature, .holds .org, .holds created.org.stamp.created⟩] }

theorem insertOrg_adds
    {name : String}
    {new : NewOrg}
    {created : CreatedOrg}
    (given : (insertOrg ring name new).Gives before created after) :
    ∃ texts, AddsOrg ring name new created texts before.tables after.tables := by
  simp only [insertOrg, Work.gives_bind, Work.gives_freshId, Work.gives_execute,
    Work.gives_require, Work.gives_pure] at given
  obtain ⟨id, _, ⟨-, rfl⟩, owner, middle, inserts, stamp, stamped, stamps, -, _, ⟨-, rfl⟩,
    -, _, ⟨tables, insertsOrg, rfl⟩, -, _, ⟨final, registers, rfl⟩, rfl, rfl⟩ := given
  obtain ⟨texts, adds⟩ := insertUser_adds inserts
  obtain ⟨-, rfl⟩ := register_eq_ok.mp registers
  simp only [Tables.insertOrg, bind_eq_ok, insertRow_eq_ok] at insertsOrg
  obtain ⟨rows, ⟨-, rfl⟩, last⟩ := insertsOrg
  cases last
  refine ⟨texts, congrArg (Org.mk id name owner.id) (initialStamp_eq stamps), adds.made,
    adds.sealedFor, ?_⟩
  rw [(initialStamp_gives stamps).tables, adds.tables]
  simp [registering, Work.afterUuid]

/-- Sound tables stay sound when an organization and its owner are inserted. -/
theorem insertOrg_sound
    {name : String}
    {new : NewOrg}
    {created : CreatedOrg}
    (sound : before.tables.Sound)
    (given : (insertOrg ring name new).Gives before created after) :
    after.tables.Sound := by
  obtain ⟨middle, texts, owner, org, -, -⟩ := insertOrg_gives given
  exact (Undergoes.inserted org).sound ((Undergoes.inserted owner).sound sound)

/-- The owner gets a place behind all records, and the organization one behind the owner. -/
theorem insertOrg_places
    {name : String}
    {new : NewOrg}
    {created : CreatedOrg}
    (sound : before.tables.Sound)
    (given : (insertOrg ring name new).Gives before created after) :
    (∀ kind, ∀ row ∈ before.tables.rows kind, ∃ number,
      kind.orderCell row = .holds number ∧ number < created.owner.stamp.order) ∧
    created.owner.stamp.order < created.org.stamp.order := by
  obtain ⟨middle, texts, owner, org, -, -⟩ := insertOrg_gives given
  have numbered := ((Undergoes.inserted owner).sound sound).numbered
  constructor
  · intro kind row member
    obtain ⟨number, later, holds, same, earlier⟩ := owner.last sound.numbered kind row member
    cases Cell.holds.inj same
    exact ⟨number, holds, earlier⟩
  · have placed : UserRow.ofUser created.owner texts ∈ middle.rows .user := by
      rw [show middle.rows .user = _ from owner.rows_eq]
      exact List.mem_append_right _ (List.mem_singleton_self _)
    obtain ⟨number, later, holds, same, earlier⟩ := org.last numbered .user _ placed
    cases Cell.holds.inj holds
    cases Cell.holds.inj same
    exact earlier

/-! ## The promotion -/

/-- A user under the current version that is made active differs in its stamp only. -/
theorem renewal_promoted
    {user : User}
    (current : user.keyVersion = ring.current) :
    let record := Work.renewal ring before user
      { user with stamp := { user.stamp with status := .active } }
    record = user.promoted record.stamp.changed record.stamp.signature := by
  obtain ⟨id, org, displayName, publicKey, email, keyVersion, password, stamp⟩ := user
  cases current
  rfl

/-- The status is the one watched column that a promotion changes. -/
theorem changes_promoted
    {user : User}
    (unconfirmed : user.stamp.status = .unconfirmed)
    (changed : Int)
    (signature : Signature) :
    changes User.watched user (user.promoted changed signature) =
      [("status", { old := .integer 1, new := .integer 2 })] := by
  simp [changes, User.watched, Watch.change?, User.promoted, unconfirmed,
    Status.code, User.publicKeyDigest, User.displayNameDigest, Json.integer]

theorem note_promoted
    {user : User}
    {changed : Int}
    {signature : Signature}
    {entries : List Entry}
    (unconfirmed : user.stamp.status = .unconfirmed)
    (numbered : before.tables.Numbered)
    (given : (Work.note user (user.promoted changed signature)).Gives before entries after) :
    ∃ order time,
      after.tables =
        before.tables.noting [.ofPromotion user (user.promoted changed signature) order time] := by
  simp only [Work.note, Work.gives_bind, Work.gives_now] at given
  obtain ⟨time, _, ⟨-, rfl⟩, noted⟩ := given
  have clocked : (Work.afterClock before).tables.Numbered := numbered
  obtain ⟨stored, knows⟩ := clocked.knows .trail
  obtain ⟨told, notes, -, tables⟩ := Work.mapM_noteChange_gives clocked knows noted
  rw [show Versioned.watched = User.watched from rfl, changes_promoted unconfirmed] at told
  obtain ⟨entry, rfl, column⟩ := List.map_eq_singleton_iff.mp told
  have isNoted := notes entry (List.mem_singleton_self _)
  obtain ⟨isColumn, isDetails⟩ := Prod.mk.inj column
  have same : entry = .ofPromotion user (user.promoted changed signature) entry.order
      entry.time := by
    cases entry
    exact (Entry.mk.injEq ..).mpr ⟨isNoted.kind, isNoted.entity, isColumn, isNoted.oldTime,
      isNoted.newTime, isNoted.oldSignature, isNoted.newSignature, isDetails, rfl, rfl⟩
  exact ⟨entry.order, entry.time, same ▸ tables⟩

/-- The last row of the users is the one that is written over. -/
theorem users_of_overwritten
    {tables written : Tables}
    {earlier : List UserRow}
    {old new : UserRow}
    {id : UserId}
    (overwritten : Overwritten .user old new tables written)
    (placed : tables.users = earlier ++ [old])
    (holds : new.id = .holds id)
    (sameId : old.id = .holds id) :
    written = { tables with users := earlier ++ [new] } := by
  obtain ⟨before, behind, placedThere, rfl, apart⟩ := overwritten
  have others := id_ne_of_apart apart holds
  have unequal : ∀ row ∈ before ++ behind, row ≠ old := by
    rintro row member rfl
    exact others row member sameId
  have split : List.append before (old :: behind) = earlier ++ [old] :=
    placedThere.symm.trans placed
  obtain ⟨rfl, -, rfl⟩ := (List.append_cons_inj_of_notMem
    (fun member => unequal old (List.mem_append_left _ member) rfl)
    (fun member => unequal old (List.mem_append_right _ member) rfl)).mp split
  rfl

/-- What the promotion of an owner changes, whose row is the last one. -/
structure Promotes
    (ring : KeyRing)
    (earlier : List UserRow)
    (unconfirmed owner : User)
    (texts : SealedTexts)
    (entry : Entry)
    (before after : Tables) :
    Prop where
  promoted : owner = unconfirmed.promoted owner.stamp.changed owner.stamp.signature
  sealedFor : texts.SealedFor ring owner
  fresh : ¬ before.Registered owner.stamp.signature
  told : entry = .ofPromotion unconfirmed owner entry.order entry.time
  tables : after = { before with
    users := earlier ++ [UserRow.ofUser owner texts]
    trail := before.trail ++ [EntryRow.ofEntry entry]
    registry := before.registry ++
      [⟨.holds owner.stamp.signature, .holds .user, .holds owner.stamp.changed⟩] }

theorem promoteOwner_promotes
    {inserted created : CreatedOrg}
    {earlier : List UserRow}
    {texts : SealedTexts}
    (sound : before.tables.Sound)
    (placed : before.tables.users = earlier ++ [UserRow.ofUser inserted.owner texts])
    (sealedFor : texts.SealedFor ring inserted.owner)
    (unconfirmed : inserted.owner.stamp.status = .unconfirmed)
    (given : (promoteOwner ring inserted).Gives before created after) :
    created.org = inserted.org ∧ ∃ sealedAnew entry,
      Promotes ring earlier inserted.owner created.owner sealedAnew entry before.tables
        after.tables := by
  obtain ⟨mutation, mutates, rfl⟩ := promoteOwner_gives given
  obtain ⟨loaded, changed, written, registered, steps⟩ :=
    Work.mutate_steps (Work.looksAtRecord_pure _) mutates
  have member : UserRow.ofUser inserted.owner texts ∈ before.tables.users := by
    rw [placed]
    exact List.mem_append_right _ (List.mem_singleton_self _)
  have stored : before.tables.row? .user inserted.owner.id.uuid =
      some (UserRow.ofUser inserted.owner texts) :=
    sound.row?_eq_some_iff.mpr ⟨member, rfl⟩
  have found := Tables.user?_ofUser stored (sealedFor.openTo rfl)
  cases steps.found.symm.trans found
  obtain ⟨rfl, -⟩ := Work.gives_pure.mp steps.changes
  have record : mutation.record = inserted.owner.promoted mutation.record.stamp.changed
      mutation.record.stamp.signature := by
    rw [steps.record]
    exact renewal_promoted sealedFor.current
  obtain ⟨sealedAnew, old, sealedForAnew, holds, -, overwritten⟩ :=
    User.overwrite_gives steps.overwrites
  have sameRow := (overwritten.row?_eq holds rfl).1
  rw [record] at sameRow
  obtain rfl : UserRow.ofUser inserted.owner texts = old :=
    Option.some.inj (stored.symm.trans sameRow)
  have numbered := overwritten.numbered
    ⟨inserted.owner.overwritten mutation.record, sealedAnew, rfl⟩ sound
  have users := users_of_overwritten overwritten placed holds holds
  obtain ⟨fresh, registers⟩ := register_eq_ok.mp steps.registers
  have notes := steps.notes
  rw [record] at notes
  obtain ⟨order, time, noted⟩ := note_promoted unconfirmed (by rw [registers]; exact numbered) notes
  refine ⟨rfl, sealedAnew, .ofPromotion inserted.owner mutation.record order time, record,
    sealedForAnew, ?_, rfl, ?_⟩
  · rwa [users] at fresh
  · have sameOwner : inserted.owner.overwritten mutation.record = mutation.record := by
      rw [record]
      rfl
    have told := congrArg (Entry.ofPromotion inserted.owner · order time) record
    rw [noted, registers, users, UserRow.overwritten_ofUser, sameOwner, ← told]
    rfl

/-! ## The creation -/

/--
Everything that the creation of an organization does: the rows that are added, what they
hold, and what can be read of the two records afterwards.
-/
structure Establishes
    (ring : KeyRing)
    (new : NewOrg)
    (created : CreatedOrg)
    (unconfirmed : User)
    (texts : SealedTexts)
    (entry : Entry)
    (before after : Session) :
    Prop where
  tables : after.tables = before.tables.establishing created unconfirmed texts entry
  org : created.org =
    { id := created.org.id
      name := Text.trim new.name
      owner := created.owner.id
      stamp := { created.org.stamp with
        changed := created.org.stamp.created
        status := new.status
        role := new.role
        layout := 0 } }
  owner : created.owner = new.owner.made ring created.owner.id created.org.id
    { created.owner.stamp with
      status := .active
      role := new.owner.role
      layout := 0 }
  sealedFor : texts.SealedFor ring created.owner
  /-- Before its promotion the owner differed in its stamp only. -/
  wasInserted : unconfirmed = { created.owner with
    stamp := { created.owner.stamp with
      changed := created.owner.stamp.created
      signature := unconfirmed.stamp.signature
      status := .unconfirmed
      role := new.owner.role
      layout := 0 } }
  told : entry = .ofPromotion unconfirmed created.owner entry.order entry.time
  /-- What was added to the trail is read as this entry. -/
  readsEntry : (EntryRow.ofEntry entry).toEntry = .ok entry
  /-- The state in which the owner was unconfirmed has a signature of its own. -/
  renewed : created.owner.stamp.signature ≠ unconfirmed.stamp.signature
  ownerLast : ∀ kind, ∀ row ∈ before.tables.rows kind, ∃ number,
    kind.orderCell row = .holds number ∧ number < created.owner.stamp.order
  orgLast : created.owner.stamp.order < created.org.stamp.order
  readsOrg : (org? created.org.id).Gives after (some created.org) after
  readsOwner : (user? ring created.owner.id).Gives after (some created.owner) after

theorem createOrg_establishes
    {new : NewOrg}
    {created : CreatedOrg}
    (sound : before.tables.Sound)
    (given : (createOrg ring new).Gives before created after) :
    ∃ unconfirmed texts entry,
      Establishes ring new created unconfirmed texts entry before after := by
  obtain ⟨inserted, middle, final, inserts, promotes, rfl⟩ := createOrg_gives given
  obtain ⟨texts, adds⟩ := insertOrg_adds inserts
  obtain ⟨ownerLast, orgLast⟩ := insertOrg_places sound inserts
  have placed : middle.tables.users =
      before.tables.users ++ [UserRow.ofUser inserted.owner texts] := by
    rw [adds.tables]
  have unconfirmed : inserted.owner.stamp.status = .unconfirmed := by
    rw [adds.owner]
    rfl
  obtain ⟨sameOrg, sealedAnew, entry, promoted⟩ :=
    promoteOwner_promotes (insertOrg_sound sound inserts) placed adds.sealedFor unconfirmed
      promotes
  have tables : final.tables =
      before.tables.establishing created inserted.owner sealedAnew entry := by
    rw [promoted.tables, adds.tables, establishing, sameOrg, promoted.promoted]
    simp [User.promoted]
  have soundAfter : final.tables.Sound :=
    (Request.createOrg_outcome sound given).evolves.sound sound
  have orgStored : final.tables.row? .org created.org.id.uuid =
      some (OrgRow.ofOrg created.org) := by
    refine soundAfter.row?_eq_some_iff.mpr ⟨?_, rfl⟩
    rw [tables, rows_org_establishing]
    exact List.mem_append_right _ (List.mem_singleton_self _)
  have ownerStored : final.tables.row? .user created.owner.id.uuid =
      some (UserRow.ofUser created.owner sealedAnew) := by
    refine soundAfter.row?_eq_some_iff.mpr ⟨?_, rfl⟩
    rw [tables, rows_user_establishing]
    exact List.mem_append_right _ (List.mem_singleton_self _)
  have issued : middle.tables.Registered inserted.owner.stamp.signature := by
    refine ⟨⟨.holds inserted.owner.stamp.signature, .holds .user,
      .holds inserted.owner.stamp.created⟩, ?_, rfl⟩
    rw [adds.tables]
    simp
  have owner := adds.owner
  obtain ⟨changed, signature, isPromoted⟩ : ∃ changed signature,
      created.owner = inserted.owner.promoted changed signature := ⟨_, _, promoted.promoted⟩
  exact ⟨inserted.owner, sealedAnew, entry, {
    tables
    org := by
      rw [sameOrg, isPromoted]
      exact adds.made
    owner := by
      rw [sameOrg, isPromoted, owner]
      rfl
    sealedFor := promoted.sealedFor
    wasInserted := by
      rw [isPromoted]
      rw [owner]
      rfl
    told := promoted.told
    readsEntry := by
      rw [promoted.told]
      exact EntryRow.toEntry_ofPromotion ..
    renewed := fun same => promoted.fresh (same ▸ issued)
    ownerLast := by
      rw [isPromoted]
      exact ownerLast
    orgLast := by
      rw [isPromoted, sameOrg]
      exact orgLast
    readsOrg := Work.gives_ask.mpr ⟨Tables.org?_of_row? orgStored, rfl⟩
    readsOwner := Work.gives_ask.mpr
      ⟨Tables.user?_ofUser ownerStored (promoted.sealedFor.openTo rfl), rfl⟩ }⟩

end Directory

/--
After any run from an empty directory, an organization that is accepted adds the rows of its
two records, three signatures and one entry of the trail, and it is read as it was returned.
-/
theorem creation_adds_exactly_its_rows
    {source : Source}
    (events : List Event)
    {ring : KeyRing}
    {new : NewOrg}
    {created : CreatedOrg}
    {after : Session}
    (given : (Directory.createOrg ring new).Gives ((Session.founded source).after events)
      created after) :
    ∃ unconfirmed texts entry,
      Directory.Establishes ring new created unconfirmed texts entry
        ((Session.founded source).after events) after :=
  Directory.createOrg_establishes (Session.sound_after source events) given

/-- The first organization is accepted, and it adds exactly its rows to an empty directory. -/
theorem first_creation_adds_its_rows :
    ∃ created later unconfirmed texts entry,
      (Directory.createOrg Sample.ring Sample.newOrg).Gives (Session.founded Sample.source)
        created later ∧
      Directory.Establishes Sample.ring Sample.newOrg created unconfirmed texts entry
        (Session.founded Sample.source) later := by
  rcases Sample.begins with ⟨created, later, performs, -⟩
  simp only [Request.perform, Work.gives_bind, Work.gives_pure] at performs
  obtain ⟨_, _, creates, same, rfl⟩ := performs
  cases same
  obtain ⟨unconfirmed, texts, entry, establishes⟩ := creation_adds_exactly_its_rows [] creates
  exact ⟨created, later, unconfirmed, texts, entry, creates, establishes⟩

end SealedDirectory
