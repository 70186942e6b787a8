import SealedDirectory.Proofs.Directory.Progress
import SealedDirectory.Proofs.Directory.Reach

/-!
# The first organization

In a store without records every organization with acceptable texts is created, provided
that the three signatures which are drawn for it differ.  The owner is loaded from its
sealed texts on the way.  A change of the organization or of its owner succeeds right
after it if one more signature is fresh.
-/

namespace SealedDirectory

open Session Tables

/-! ## Creation in a store without records -/

/-- Rows do not matter to the registry. -/
theorem Tables.register_restore
    {tables : Tables}
    {signature : Signature}
    (kind : RecordKind)
    (rows : List kind.Row)
    (source : RecordKind)
    (time : Int)
    (fresh : ¬ tables.Registered signature) :
    (kind.view.restore tables rows).register signature source time =
      .ok ((kind.view.restore tables rows).registering signature source time) :=
  register_eq_ok.mpr ⟨mt registered_restore.mp fresh, rfl⟩

/-- The only row of a table is the row of its identifier. -/
theorem Tables.row?_singleton
    {tables : Tables}
    {kind : RecordKind}
    {row : kind.Row}
    {id : Uuid}
    (only : tables.rows kind = [row])
    (holds : kind.idCell row = .holds ⟨id⟩) :
    tables.row? kind id = some row := by
  rw [row?, only]
  simp [holds]

/-- Under another identifier nothing is stored beside the only row of a table. -/
theorem Tables.row?_singleton_of_ne
    {tables : Tables}
    {kind : RecordKind}
    {row : kind.Row}
    {id : Uuid}
    (only : tables.rows kind = [row])
    (differs : kind.idCell row ≠ .holds ⟨id⟩) :
    tables.row? kind id = none := by
  rw [row?, only]
  simp [differs]

/-- Nothing was ever recorded in the tables. -/
structure Tables.Blank (tables : Tables) : Prop where
  orgs : tables.orgs = []
  users : tables.users = []
  trail : tables.trail = []
  registry : tables.registry = []

namespace Directory

variable {ring : KeyRing} {session : Session}

theorem initialStamp_succeeds
    (numbered : session.tables.Numbered)
    (status : Status)
    (role : Role) :
    ∃ stamp later, (initialStamp status role).Gives session stamp later ∧
      stamp.signature = ⟨session.uuidAhead 0⟩ ∧ later.tables = session.tables ∧
      session.Drew 1 later := by
  rcases Work.nextNumber_succeeds numbered .entity with ⟨number, drawn, draws, tables, drew⟩
  have signature : drawn.source.uuid drawn.drawn.uuid = session.uuidAhead 0 := by
    rw [drew.source, drew.uuid]
    rfl
  exact ⟨_, _, draws.bind ((Work.now_succeeds _).bind ((Work.freshId_succeeds _ _).bind
    (Work.pure_succeeds _ _))), congrArg Id.mk signature, tables, drew.source,
    congrArg (· + 1) drew.uuid⟩

/-- The first user is inserted if its signature was never issued. -/
theorem insertUser_succeeds
    (ring : KeyRing)
    (org : OrgId)
    (new : NewUser)
    (numbered : session.tables.Numbered)
    (empty : session.tables.users = [])
    (fresh : ¬ session.tables.Registered ⟨session.uuidAhead 1⟩) :
    ∃ user texts later, (insertUser ring org new).Gives session user later ∧
      user.stamp.signature = ⟨session.uuidAhead 1⟩ ∧ texts.OpenTo ring user ∧
      later.tables =
        (RecordKind.user.view.restore session.tables [UserRow.ofUser user texts]).registering
          user.stamp.signature .user user.stamp.created ∧
      session.Drew 2 later := by
  have begun : Drew 1 session (Work.afterUuid session) := ⟨rfl, rfl⟩
  have numberedThen : (Work.afterUuid session).tables.Numbered := numbered
  obtain ⟨stamp, stamped, stamps, signature, stampedTables, drewStamp⟩ :=
    initialStamp_succeeds numberedThen .unconfirmed new.role
  rw [begun.uuidAhead_eq] at signature
  let user : User :=
    { id := ⟨session.uuidAhead 0⟩
      org
      displayName := new.displayName
      publicKey := new.publicKey
      email := new.email
      keyVersion := ring.current
      password := new.password
      stamp }
  obtain ⟨texts, enclosed, encloses, opens, enclosedTables, drewTexts⟩ :=
    user.sealTexts_succeeds stamped rfl
  have tables : enclosed.tables = session.tables := enclosedTables.trans stampedTables
  let rows := RecordKind.user.view.restore session.tables [UserRow.ofUser user texts]
  have accepted : enclosed.tables.insertUser (.ofUser user texts) = .ok rows := by
    rw [Tables.insertUser, tables, empty]
    rfl
  have inserts : (user.insert ring).Gives stamped () { enclosed with tables := rows } :=
    encloses.bind (Work.execute_succeeds accepted)
  rw [← signature] at fresh
  let registered := rows.registering stamp.signature .user stamp.created
  have registers : (Work.execute fun tables : Tables =>
      tables.register stamp.signature .user stamp.created).Gives
        { enclosed with tables := rows } () { enclosed with tables := registered } :=
    Work.execute_succeeds
      (Tables.register_restore .user [UserRow.ofUser user texts] .user stamp.created fresh)
  have given : (insertUser ring org new).Gives session user
      { enclosed with tables := registered } :=
    (Work.freshId_succeeds session .user).bind (stamps.bind (inserts.bind
      (registers.bind (Work.pure_succeeds _ user))))
  have drew := (begun.trans drewStamp).trans drewTexts
  exact ⟨user, texts, _, given, signature, opens, rfl, drew.source, drew.uuid⟩

/-- The first organization is inserted with its owner if their signatures differ. -/
theorem insertOrg_succeeds
    (ring : KeyRing)
    (new : NewOrg)
    {name : String}
    (sound : session.tables.Sound)
    (blank : session.tables.Blank)
    (named : Org.checkName name = .ok ())
    (differ : session.uuidAhead 2 ≠ session.uuidAhead 3) :
    ∃ created texts later, (insertOrg ring name new).Gives session created later ∧
      texts.OpenTo ring created.owner ∧
      later.tables.users = [UserRow.ofUser created.owner texts] ∧
      later.tables.orgs = [OrgRow.ofOrg created.org] ∧
      created.owner.stamp.signature = ⟨session.uuidAhead 2⟩ ∧
      created.org.stamp.signature = ⟨session.uuidAhead 3⟩ ∧
      session.Drew 4 later := by
  have begun : Drew 1 session (Work.afterUuid session) := ⟨rfl, rfl⟩
  have unissued (signature : Signature) : ¬ session.tables.Registered signature := by
    rintro ⟨row, member, -⟩
    rw [blank.registry] at member
    cases member
  have numbered : (Work.afterUuid session).tables.Numbered := sound.numbered
  obtain ⟨owner, texts, middle, inserts, ownerSignature, opens, tables, drewOwner⟩ :=
    insertUser_succeeds ring ⟨session.uuidAhead 0⟩ new.owner numbered blank.users (unissued _)
  rw [begun.uuidAhead_eq] at ownerSignature
  have drewBoth : Drew 3 session middle := begun.trans drewOwner
  rcases insertUser_gives inserts with ⟨_, inserted, -, -⟩
  have soundThen : middle.tables.Sound := (Undergoes.inserted inserted).sound sound
  obtain ⟨stamp, stamped, stamps, signature, stampedTables, drewStamp⟩ :=
    initialStamp_succeeds soundThen.numbered new.status new.role
  rw [drewBoth.uuidAhead_eq] at signature
  let org : Org := { id := ⟨session.uuidAhead 0⟩, name, owner := owner.id, stamp }
  let rows := RecordKind.org.view.restore middle.tables [OrgRow.ofOrg org]
  have noOrgs : middle.tables.orgs = [] := by
    rw [tables]
    exact blank.orgs
  have accepted : stamped.tables.insertOrg (.ofOrg org) = .ok rows := by
    rw [Tables.insertOrg, stampedTables, noOrgs]
    rfl
  have fresh : ¬ middle.tables.Registered stamp.signature := by
    rw [tables, Tables.registered_registering, Tables.registered_restore, signature,
      ownerSignature]
    rintro (issued | same)
    · exact unissued _ issued
    · exact differ (congrArg Id.uuid same)
  let registered := rows.registering stamp.signature .org stamp.created
  have registers : (Work.execute fun tables : Tables =>
      tables.register stamp.signature .org stamp.created).Gives
        { stamped with tables := rows } () { stamped with tables := registered } :=
    Work.execute_succeeds
      (Tables.register_restore .org [OrgRow.ofOrg org] .org stamp.created fresh)
  have given : (insertOrg ring name new).Gives session ⟨org, owner⟩
      { stamped with tables := registered } :=
    (Work.freshId_succeeds session .org).bind (inserts.bind (stamps.bind
      ((Work.require_succeeds stamped named).bind ((Work.execute_succeeds accepted).bind
        (registers.bind (Work.pure_succeeds _ _))))))
  have drew : Drew 4 session stamped := drewBoth.trans drewStamp
  refine ⟨⟨org, owner⟩, texts, _, given, opens, ?_, rfl, ownerSignature, signature,
    drew.source, drew.uuid⟩
  show middle.tables.users = _
  rw [tables]
  rfl

end Directory

/-- A session after the first organization was created, with all that was ever recorded. -/
structure Session.HoldsFirst
    (session : Session)
    (ring : KeyRing)
    (begun : Session)
    (created : CreatedOrg) :
    Prop where
  sound : session.tables.Sound
  org : session.tables.orgs = [OrgRow.ofOrg created.org]
  owner : ∃ texts, session.tables.users = [UserRow.ofUser created.owner texts] ∧
    texts.OpenTo ring created.owner
  orgSignature : created.org.stamp.signature = ⟨begun.uuidAhead 3⟩
  ownerSignature : created.owner.stamp.signature = ⟨begun.uuidAhead 4⟩
  issued : ∀ signature, session.tables.Registered signature →
    ∃ count < 5, signature = ⟨begun.uuidAhead count⟩
  told : ∀ row ∈ session.tables.trail,
    row.oldSignature = .holds ⟨begun.uuidAhead 2⟩ ∧
      row.newSignature = .holds ⟨begun.uuidAhead 4⟩
  drew : begun.Drew 5 session

namespace Directory

variable {ring : KeyRing} {session : Session}

/-- The owner of the first organization is promoted. -/
theorem promoteOwner_succeeds
    {inserted : CreatedOrg}
    {texts : SealedTexts}
    (sound : session.tables.Sound)
    (opens : texts.OpenTo ring inserted.owner)
    (users : session.tables.users = [UserRow.ofUser inserted.owner texts])
    (trail : session.tables.trail = [])
    (fresh : ¬ session.tables.Registered ⟨session.uuidAhead 0⟩) :
    ∃ created more later, (promoteOwner ring inserted).Gives session created later ∧
      created.org = inserted.org ∧
      created.owner.stamp.signature = ⟨session.uuidAhead 0⟩ ∧
      more.OpenTo ring created.owner ∧
      later.tables.users = [UserRow.ofUser created.owner more] ∧
      (∃ entries old new, Replaced inserted.owner.sight ⟨session.uuidAhead 0⟩ entries old new
        session.tables later.tables) ∧
      session.Drew 1 later := by
  let owner := inserted.owner
  let promoted : User := { owner with stamp := { owner.stamp with status := .active } }
  have found : Versioned.find session.tables ring owner.id = .ok (some owner) :=
    user?_ofUser (row?_singleton users rfl) opens
  let change (user : User) : Work User :=
    return { user with stamp := { user.stamp with status := .active } }
  have changes : (change owner).Gives session promoted session :=
    Work.pure_succeeds _ _
  have overwrites := User.overwrite_succeeds (Work.afterUuid (Work.afterClock session))
    (Work.renewal ring session owner promoted) [] [] users rfl rfl (by simp) rfl
    (by simp [Apart])
  have unnoted : ∀ columns, session.tables.Unnoted owner.stamp.signature
      ⟨session.uuidAhead 0⟩ columns := by
    intro columns row member
    rw [trail] at member
    cases member
  obtain ⟨mutation, later, mutates, record, rows, drewLater⟩ :=
    Work.mutate_succeeds sound found changes overwrites ⟨rfl, rfl⟩ fresh unnoted
  obtain ⟨old, new, replaced, -⟩ :=
    Work.mutate_gives (Work.looksAtRecord_pure _) sound mutates
  have given : (promoteOwner ring inserted).Gives session
      { inserted with owner := mutation.record } later :=
    mutates.bind (Work.pure_succeeds _ _)
  rw [record] at given replaced
  exact ⟨_, _, later, given, rfl, rfl, User.openTo_sealedTexts _ rfl, rows .user,
    ⟨_, old, new, replaced⟩, drewLater⟩

/--
In a store without records an organization with acceptable texts is created, if the
signatures that are drawn for it and its owner differ.
-/
theorem createOrg_succeeds
    (ring : KeyRing)
    (new : NewOrg)
    (sound : session.tables.Sound)
    (blank : session.tables.Blank)
    (named : Org.checkName (Text.trim new.name) = .ok ())
    (checked : new.owner.check = .ok ())
    (distinct : session.DrawsApart 5) :
    ∃ created later, (createOrg ring new).Gives session created later ∧
      later.HoldsFirst ring session created := by
  have differ : session.uuidAhead 2 ≠ session.uuidAhead 3 := by
    intro same
    cases distinct 2 (by decide) 3 (by decide) same
  obtain ⟨inserted, texts, middle, inserts, opens, users, orgs, ownerSignature,
    orgSignature, drew⟩ := insertOrg_succeeds ring new sound blank named differ
  rcases insertOrg_gives inserts with ⟨ownerTables, _, owner, org, -, -⟩
  have soundThen : middle.tables.Sound :=
    (Undergoes.inserted org).sound ((Undergoes.inserted owner).sound sound)
  have issued (signature : Signature) : middle.tables.Registered signature ↔
      (⟨session.uuidAhead 2⟩ = signature) ∨ ⟨session.uuidAhead 3⟩ = signature := by
    have nothing : ¬ session.tables.Registered signature := by
      rintro ⟨row, member, -⟩
      rw [blank.registry] at member
      cases member
    rw [(Undergoes.inserted org).registered_iff, (Undergoes.inserted owner).registered_iff,
      ← ownerSignature, ← orgSignature]
    simp [nothing, Deed.signature, User.sight, Org.sight]
  have trail : middle.tables.trail = [] := by
    rw [org.trail_eq, owner.trail_eq, blank.trail]
  have fresh : ¬ middle.tables.Registered ⟨middle.uuidAhead 0⟩ := by
    rw [issued, drew.uuidAhead_eq]
    rintro (same | same)
    · cases distinct 2 (by decide) 4 (by decide) (congrArg Id.uuid same)
    · cases distinct 3 (by decide) 4 (by decide) (congrArg Id.uuid same)
  obtain ⟨created, more, later, promotes, sameOrg, promotedSignature, opensThen, usersThen,
    ⟨entries, old, newRow, replaced⟩, drewThen⟩ :=
    promoteOwner_succeeds soundThen opens users trail fresh
  rw [drew.uuidAhead_eq] at promotedSignature
  have given : (createOrg ring new).Gives session created (Work.commit later) :=
    (Work.require_succeeds session named).bind ((Work.require_succeeds session checked).bind
      (Work.gives_transaction.mpr ⟨later, inserts.bind promotes, rfl⟩))
  have drewAll : session.Drew 5 later := drew.trans drewThen
  refine ⟨created, _, given, ?_⟩
  exact {
    sound := (Undergoes.changed replaced).sound soundThen
    org := by
      have other : RecordKind.org ≠ .user := by decide
      rw [sameOrg, ← orgs]
      exact replaced.rows_of_ne other
    owner := ⟨more, usersThen, opensThen⟩
    orgSignature := by rw [sameOrg, orgSignature]
    ownerSignature := promotedSignature
    issued := by
      intro signature registered
      rw [Work.tables_commit, (Undergoes.changed replaced).registered_iff, issued,
        drew.uuidAhead_eq] at registered
      rcases registered with (rfl | rfl) | rfl
      · exact ⟨2, by decide, rfl⟩
      · exact ⟨3, by decide, rfl⟩
      · exact ⟨4, by decide, rfl⟩
    told := by
      intro row member
      rw [Work.tables_commit, replaced.trail_eq, trail, List.nil_append] at member
      rcases List.mem_map.mp member with ⟨entry, isNew, rfl⟩
      rcases replaced.signatures_eq entry isNew with ⟨oldSignature, newSignature⟩
      rw [drew.uuidAhead_eq] at newSignature
      exact ⟨congrArg Cell.holds (oldSignature.trans ownerSignature),
        congrArg Cell.holds newSignature⟩
    drew := ⟨drewAll.source, drewAll.uuid⟩ }

end Directory

/-! ## Changes of the first organization and its owner -/

namespace Session.HoldsFirst

variable
  {ring : KeyRing}
  {begun session : Session}
  {created : CreatedOrg}

/-- The identifier that is drawn next was not drawn for a signature. -/
theorem fresh
    (first : session.HoldsFirst ring begun created)
    (distinct : begun.DrawsApart 6) :
    ¬ session.tables.Registered ⟨session.uuidAhead 0⟩ := by
  intro registered
  rcases first.issued _ registered with ⟨count, below, same⟩
  rw [first.drew.uuidAhead_eq] at same
  have equal := distinct 5 (by decide) count (by omega) (congrArg Id.uuid same)
  omega

/-- The trail tells of neither record under its signature, nor of the next signature. -/
theorem unnoted
    (first : session.HoldsFirst ring begun created)
    (distinct : begun.DrawsApart 6)
    {signature : Signature}
    (other : signature ≠ ⟨begun.uuidAhead 2⟩)
    (columns : List String) :
    session.tables.Unnoted signature ⟨session.uuidAhead 0⟩ columns := by
  intro row member _
  rcases first.told row member with ⟨oldSignature, newSignature⟩
  rw [oldSignature, newSignature, first.drew.uuidAhead_eq]
  constructor
  · intro same
    exact other (Cell.holds.inj same).symm
  · intro same
    cases distinct 4 (by decide) 5 (by decide) (congrArg Id.uuid (Cell.holds.inj same))

/-- A change of the first organization succeeds if one more signature is fresh. -/
theorem mutateOrg_succeeds
    (first : session.HoldsFirst ring begun created)
    (distinct : begun.DrawsApart 6)
    (change : Org → Work Org)
    {changed : Org}
    (changes : (change created.org).Gives session changed session)
    (sameId : changed.id = created.org.id) :
    ∃ mutation later,
      (Work.mutate ring created.org.id created.org.stamp.signature change).Gives
        session mutation later := by
  have stored : session.tables.row? .org created.org.id.uuid =
      some (OrgRow.ofOrg created.org) :=
    row?_singleton first.org rfl
  have found : Versioned.find session.tables ring created.org.id = .ok (some created.org) :=
    mapM_eq_ok_some.mpr ⟨_, stored, OrgRow.toOrg_ofOrg created.org⟩
  have other : created.org.stamp.signature ≠ ⟨begun.uuidAhead 2⟩ := by
    intro same
    have equal := congrArg Id.uuid (first.orgSignature.symm.trans same)
    cases distinct 3 (by decide) 2 (by decide) equal
  have overwrites := Org.overwrite_succeeds (Work.afterUuid (Work.afterClock session)) ring
    (Work.renewal ring session created.org changed) [] [] first.org
    (congrArg Cell.holds sameId.symm) rfl (by simp) (by simp [Apart])
  obtain ⟨mutation, later, mutates, -⟩ :=
    Work.mutate_succeeds first.sound found changes overwrites ⟨rfl, rfl⟩
      (first.fresh distinct) (first.unnoted distinct other)
  exact ⟨mutation, later, mutates⟩

/-- A change of its owner succeeds likewise. -/
theorem mutateOwner_succeeds
    (first : session.HoldsFirst ring begun created)
    (distinct : begun.DrawsApart 6)
    (change : User → Work User)
    {changed : User}
    (changes : (change created.owner).Gives session changed session)
    (sameId : changed.id = created.owner.id) :
    ∃ mutation later,
      (Work.mutate ring created.owner.id created.owner.stamp.signature change).Gives
        session mutation later := by
  rcases first.owner with ⟨texts, users, opens⟩
  have found :
      Versioned.find session.tables ring created.owner.id = .ok (some created.owner) :=
    user?_ofUser (row?_singleton users rfl) opens
  have other : created.owner.stamp.signature ≠ ⟨begun.uuidAhead 2⟩ := by
    intro same
    have equal := congrArg Id.uuid (first.ownerSignature.symm.trans same)
    cases distinct 4 (by decide) 2 (by decide) equal
  have overwrites := User.overwrite_succeeds (Work.afterUuid (Work.afterClock session))
    (Work.renewal ring session created.owner changed) [] [] users
    (congrArg Cell.holds sameId.symm) rfl (by simp) rfl (by simp [Apart])
  obtain ⟨mutation, later, mutates, -⟩ :=
    Work.mutate_succeeds first.sound found changes overwrites ⟨rfl, rfl⟩
      (first.fresh distinct) (first.unnoted distinct other)
  exact ⟨mutation, later, mutates⟩

theorem setOrgStatus_succeeds
    (first : session.HoldsFirst ring begun created)
    (distinct : begun.DrawsApart 6)
    (status : Status) :
    ∃ mutation later,
      ((Request.setOrgStatus created.org.id created.org.stamp.signature status).perform
        ring).Gives session (.changedOrg mutation) later := by
  let change (org : Org) : Work Org := return { org with stamp := { org.stamp with status } }
  have changes : (change created.org).Gives session
      { created.org with stamp := { created.org.stamp with status } } session :=
    Work.pure_succeeds _ _
  rcases first.mutateOrg_succeeds distinct change changes rfl with ⟨mutation, later, mutates⟩
  have sets : (Directory.setOrgStatus ring created.org.id created.org.stamp.signature
      status).Gives session mutation (Work.commit later) :=
    Work.gives_transaction.mpr ⟨later, mutates, rfl⟩
  exact ⟨mutation, _, sets.bind (Work.pure_succeeds _ _)⟩

end Session.HoldsFirst

/-! ## Runs that begin with an organization -/

theorem Session.blank_founded (source : Source) : (founded source).tables.Blank :=
  ⟨(rests_founded .empty).orgs, (rests_founded .empty).users, (rests_founded .empty).trail,
    (rests_founded .empty).registry⟩

/-- The first request for an organization with acceptable texts is accepted. -/
theorem first_request_succeeds
    (source : Source)
    (ring : KeyRing)
    (new : NewOrg)
    (named : Org.checkName (Text.trim new.name) = .ok ())
    (checked : new.owner.check = .ok ())
    (distinct : (founded source).DrawsApart 5) :
    ∃ created later,
      ((Request.createOrg new).perform ring).Gives (founded source) (.created created)
        later ∧
      later.HoldsFirst ring (founded source) created := by
  obtain ⟨created, later, creates, first⟩ := Directory.createOrg_succeeds ring new
    (sound_founded source) (blank_founded source) named checked distinct
  exact ⟨created, later, creates.bind (Work.pure_succeeds _ _), first⟩

namespace Sample

def ring : KeyRing where
  keys := ⟨[(⟨.ofRandom [0]⟩, .ofRandom [0])], by simp⟩
  current := ⟨.ofRandom [0]⟩
  held := by decide

def source : Source where
  clock := fun _ => ⟨0, 0⟩
  uuid := fun index => .ofRandom [UInt8.ofNat index]
  nonce := fun _ => .ofRandom []
  salt := fun _ => []
  key := fun _ => .ofRandom []

def newOrg : NewOrg where
  name := "a"
  owner := { displayName := "b", publicKey := "c", email := "d@e", password := "f" }

theorem drawsApart_source : (founded source).DrawsApart 6 := by
  unfold DrawsApart
  decide +kernel

theorem begins :
    ∃ created later,
      ((Request.createOrg newOrg).perform ring).Gives (founded source) (.created created)
        later ∧
      later.HoldsFirst ring (founded source) created := by
  apply first_request_succeeds source ring newOrg
  · decide +kernel
  · decide +kernel
  · intro first below second belowSecond
    exact drawsApart_source first (by omega) second (by omega)

end Sample

end SealedDirectory
