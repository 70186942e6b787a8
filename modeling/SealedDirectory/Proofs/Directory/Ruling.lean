import SealedDirectory.Proofs.Directory.Commuting
import SealedDirectory.Proofs.Directory.Judging
import SealedDirectory.Proofs.Directory.Naming

/-!
# What requests about organizations come to

Whether a request about an organization is accepted can be judged from the tables
beforehand, and if it is not, so can the fault.  The judgements below name everything that
can go wrong, in the order in which it is noticed.

No ring matters to them, for nothing of an organization is sealed, and the only user that is
opened is the owner of a new organization, under the ring that has just sealed it.  That
the organization of every user is stored, so that a user is a member of another one if it
is not a member of the one to be handed over, is shown of every store that a run reaches.
The identifiers that are drawn have to be new.
-/

namespace SealedDirectory

open Tables

/-! ## Judgements -/

/-- What a name by itself comes to: it must not be blank or have more than 100 bytes. -/
def unlessImproper (name : String) : Except Fault Unit :=
  if (Text.trim name).isEmpty then .error (.invalid (.org .emptyName))
  else if 100 < name.utf8ByteSize then
    .error (.invalid (.org (.longName name.utf8ByteSize)))
  else .ok ()

/-- The check of a name comes to what is judged of it. -/
theorem mapError_checkName (name : String) :
    ((Org.checkName name).mapError fun rule => .invalid (.org rule)) = unlessImproper name := by
  unfold Org.checkName OrgRule.nameLimit unlessImproper
  split_ifs <;> rfl

/-- What the signature that a caller expects comes to. -/
def Org.unlessStale
    (org : Org)
    (expected : Signature) :
    Except Fault Unit :=
  if org.stamp.signature ≠ expected then
    .error (.stale .org org.id.display expected org.stamp.signature)
  else .ok ()

namespace Tables

variable (tables : Tables)

/-- What a request for a new organization comes to. -/
def judgeNewOrg (new : NewOrg) : Except Fault Unit := do
  unlessImproper (Text.trim new.name)
  new.owner.unlessUnfit
  unlessNamed tables.orgs (Text.trim new.name)

/-- What a request for another status comes to, from what is stored of the organization. -/
def judgeStatus
    (id : OrgId)
    (expected : Signature) :
    Option Org → Except Fault Unit
  | none => .error (.notFound .org id.display)
  | some org => org.unlessStale expected

/-- What a request for another name comes to. -/
def judgeName
    (id : OrgId)
    (expected : Signature)
    (name : String) :
    Option Org → Except Fault Unit
  | none => .error (.notFound .org id.display)
  | some org => do
      org.unlessStale expected
      unlessImproper name
      unlessNamed (tables.orgs.filter fun row => row.id ≠ .holds id) name

/-- What a request for another owner comes to, given the organization that is its own. -/
def judgeOwner
    (id : OrgId)
    (expected : Signature)
    (owner : UserId) :
    Option OrgId → Option Org → Except Fault Unit
  | none, _ => .error (.notFound .user owner.display)
  | some _, none => .error (.invalid (.notMember owner id))
  | some house, some org =>
      if house ≠ id then .error (.invalid (.notMember owner id)) else org.unlessStale expected

end Tables

/-! ## Changes -/

section

variable
  {tables : Tables}
  {ring : KeyRing}
  {session : Session}
  {id : OrgId}
  {expected : Signature}
  {stored? : Option Org}

theorem Tables.org?_of_row?
    {org : Org}
    (stored : tables.row? .org org.id.uuid = some (OrgRow.ofOrg org)) :
    tables.org? org.id = .ok (some org) :=
  mapM_eq_ok_some.mpr ⟨_, stored, OrgRow.toOrg_ofOrg org⟩

/-- In tables that only the directory has written every organization can be read. -/
theorem Tables.Sound.reads_org
    (sound : tables.Sound)
    (id : OrgId) :
    ∃ stored?, tables.org? id = .ok stored? ∧ ∀ org, stored? = some org → org.id = id := by
  cases stored : tables.row? .org id.uuid with
  | none =>
      refine ⟨none, congrArg (fun row? : Option OrgRow => row?.mapM OrgRow.toOrg) stored, ?_⟩
      rintro org ⟨⟩
  | some row =>
      rcases sound.row?_eq_some_iff.mp stored with ⟨member, holds⟩
      rcases sound.written .org row member with ⟨org, rfl⟩
      obtain rfl : org.id = id := Cell.holds.inj holds
      refine ⟨some org, org?_of_row? stored, ?_⟩
      rintro _ ⟨⟩
      rfl

/-- A change of an organization is admitted if the organization is stored and not stale. -/
theorem Work.admitted_of_org
    (edit : Org → Except Fault Org)
    (ring : KeyRing)
    (expected : Signature)
    (asked : tables.org? id = .ok stored?)
    (sameId : ∀ org, stored? = some org → org.id = id) :
    admitted edit ring id expected tables =
      match stored? with
      | none => .error (.notFound .org id.display)
      | some org => org.unlessStale expected >>= fun _ =>
          (edit org).map fun changed => (org, changed) := by
  have found : Versioned.find tables ring id = .ok stored? := asked
  rw [admitted, found]
  cases stored? with
  | none => rfl
  | some org =>
      obtain rfl := sameId org rfl
      have signature : (Versioned.stamp org).signature = org.stamp.signature := rfl
      dsimp only [Org.unlessStale]
      rw [signature]
      split <;> rfl

/-- A change that keeps the name comes to what the expected signature comes to. -/
theorem Work.outcome_keepingName
    (ring : KeyRing)
    (expected : Signature)
    {edit : Org → Org}
    (keeps : ∀ org, Org.Spares org (edit org))
    (regular : session.tables.Regular)
    (fresh : ¬ session.tables.Registered ⟨session.uuidAhead 0⟩)
    (asked : session.tables.org? id = .ok stored?)
    (sameId : ∀ org, stored? = some org → org.id = id) :
    (mutate ring id expected fun org => (pure (edit org) : Work Org)).outcome session =
      judgeStatus id expected stored? := by
  have sameIds : ∀ loaded changed, (.ok (edit loaded) : Except Fault Org) = .ok changed →
      changed.id = loaded.id := by
    rintro loaded _ ⟨⟩
    exact (keeps loaded).id
  rw [outcome_mutateOrg (edits_pure edit) sameIds regular fresh,
    admitted_of_org _ ring expected asked sameId]
  cases stored? with
  | none => rfl
  | some org =>
      obtain rfl := sameId org rfl
      have member := (regular.sound.row?_eq_some_iff.mp
        (org?_eq_some (regular.sound.written .org) asked)).1
      have free := regular.unlessNamed_stored member
      rw [← (keeps org).name] at free
      dsimp only [judgeStatus, Org.unlessStale]
      split
      · rfl
      · exact free

/-- A request for another name comes to what is judged of it. -/
theorem Directory.outcome_renameOrg
    (name : String)
    (regular : session.tables.Regular)
    (fresh : ¬ session.tables.Registered ⟨session.uuidAhead 0⟩)
    (asked : session.tables.org? id = .ok stored?)
    (sameId : ∀ org, stored? = some org → org.id = id) :
    Work.outcome (renameOrg ring id expected name) session =
      session.tables.judgeName id expected (Text.trim name) stored? := by
  let edit (org : Org) : Except Fault Org :=
    (unlessImproper (Text.trim name)).map fun _ => { org with name := Text.trim name }
  have sameIds : ∀ loaded changed, edit loaded = .ok changed → changed.id = loaded.id := by
    intro loaded changed edited
    cases judged : unlessImproper (Text.trim name) with
    | error fault => simp [edit, judged, Except.map] at edited
    | ok proper =>
        simp only [edit, judged, Except.map, Except.ok.injEq] at edited
        rw [← edited]
  have edits := Work.edits_require (fun _ : Org => Org.checkName (Text.trim name))
    (fun rule => .invalid (.org rule)) fun org => { org with name := Text.trim name }
  simp only [mapError_checkName] at edits
  rw [renameOrg, changeOrg, Work.outcome_transaction,
    Work.outcome_mutateOrg edits sameIds regular fresh,
    Work.admitted_of_org _ ring expected asked sameId]
  cases stored? with
  | none => rfl
  | some org =>
      dsimp only [judgeName, Org.unlessStale]
      split
      · rfl
      · cases unlessImproper (Text.trim name) <;> rfl

/-- The organization of every user can be read, and it is stored. -/
theorem Tables.Linked.reads_house
    (linked : tables.Linked)
    (sound : tables.Sound)
    (user : UserId) :
    ∃ house?, tables.orgOfUser? user = .ok house? ∧
      ∀ house, house? = some house → tables.org? house ≠ .ok none := by
  cases stored : tables.row? .user user.uuid with
  | none =>
      have absent : (tables.users.find? fun row => row.id = .holds user) = none := stored
      refine ⟨none, by rw [orgOfUser?, absent]; rfl, ?_⟩
      rintro house ⟨⟩
  | some row =>
      have member := (sound.row?_eq_some_iff.mp stored).1
      rcases sound.written .user row member with ⟨held, texts, rfl⟩
      refine ⟨some held.org, mapM_eq_ok_some.mpr ⟨_, stored, rfl⟩, ?_⟩
      rintro _ ⟨⟩ absent
      rcases linked.housed _ member with ⟨org, isStored, same⟩
      have present : tables.row? .org held.org.uuid = some org :=
        sound.row?_eq_some_iff.mpr ⟨isStored, same⟩
      rcases sound.written .org org isStored with ⟨known, rfl⟩
      rw [← Cell.holds.inj same] at present absent
      cases (org?_of_row? present).symm.trans absent

/-- A request for another owner comes to what is judged of it. -/
theorem Directory.outcome_setOwner
    {house? : Option OrgId}
    (owner : UserId)
    (regular : session.tables.Regular)
    (fresh : ¬ session.tables.Registered ⟨session.uuidAhead 0⟩)
    (asked : session.tables.org? id = .ok stored?)
    (sameId : ∀ org, stored? = some org → org.id = id)
    (housed : session.tables.orgOfUser? owner = .ok house?)
    (isStored : ∀ house, house? = some house → session.tables.org? house ≠ .ok none) :
    Work.outcome (setOwner ring id expected owner) session =
      judgeOwner id expected owner house? stored? := by
  have keeps (org : Org) : Org.Spares org { org with owner } := ⟨rfl, rfl⟩
  have changes := Work.outcome_keepingName ring expected keeps regular fresh asked sameId
  have checks := runIn_requireMember owner id session
  rw [memberCheck, housed] at checks
  rw [setOwner, Work.outcome_transaction]
  cases house? with
  | none => exact (Work.Fails.bind checks _).outcome_eq
  | some house =>
      by_cases same : house = id
      · subst same
        have passes : (requireMember owner house).Gives session () session := by
          rw [Work.Gives]
          simpa [bind, Except.bind] using checks
        rw [passes.outcome_bind, changes]
        cases stored? with
        | none => exact absurd asked (isStored house rfl)
        | some org => simp only [judgeStatus, judgeOwner, ne_eq, not_true_eq_false, if_false]
      · have fails : (requireMember owner id).Fails session (.invalid (.notMember owner id))
            session := by
          rw [Work.Fails]
          simpa [bind, Except.bind, same] using checks
        rw [(fails.bind _).outcome_eq]
        cases stored? with
        | none => rfl
        | some org => rw [judgeOwner, if_pos same]

/-! ## Creation -/

theorem Session.DrawsNew.fewer
    {count fewer : Nat}
    (unused : session.DrawsNew count)
    (atMost : fewer ≤ count) :
    session.DrawsNew fewer where
  apart := fun first below second belowToo =>
    unused.apart first (below.trans_le atMost) second (belowToo.trans_le atMost)
  unissued := fun further below => unused.unissued further (below.trans_le atMost)
  unnamed := fun kind further below => unused.unnamed kind further (below.trans_le atMost)

/-- A request for a new organization comes to what is judged of it. -/
theorem Directory.outcome_createOrg
    (ring : KeyRing)
    (new : NewOrg)
    (regular : session.tables.Regular)
    (linked : session.tables.Linked)
    (unused : session.DrawsNew 5) :
    Work.outcome (createOrg ring new) session = session.tables.judgeNewOrg new := by
  have begins : Work.outcome (createOrg ring new) session =
      unlessImproper (Text.trim new.name) >>= fun _ =>
        new.owner.unlessUnfit >>= fun _ =>
          Work.outcome (do
            let inserted ← insertOrg ring (Text.trim new.name) new
            promoteOwner ring inserted) session := by
    rw [createOrg, Work.outcome_guarded, Work.outcome_guarded, Work.outcome_transaction,
      mapError_checkName, NewUser.mapError_check]
  rw [begins, judgeNewOrg]
  cases named : Org.checkName (Text.trim new.name) with
  | error rule =>
      rw [← mapError_checkName, named]
      rfl
  | ok proper =>
      have promotes : ∀ inserted middle,
          (insertOrg ring (Text.trim new.name) new).Gives session inserted middle →
            (promoteOwner ring inserted).outcome middle = .ok () := by
        intro inserted middle inserts
        rcases insertOrg_draws inserts with ⟨ownerSignature, orgSignature, drew⟩
        rcases insertOrg_gives inserts with ⟨ownerTables, texts, owner, org, sealedFor, -⟩
        have evolves : Evolves session.tables _ middle.tables :=
          .undergoes (.inserted owner) (.undergoes (.inserted org) .done)
        have regularThen := regular.evolves evolves
        have fresh : ¬ middle.tables.Registered ⟨middle.uuidAhead 0⟩ := by
          rw [(Undergoes.inserted org).registered_iff, (Undergoes.inserted owner).registered_iff,
            drew.uuidAhead_eq]
          rintro ((issued | same) | same)
          · exact unused.unissued 4 (by decide) issued
          · cases unused.apart 2 (by decide) 4 (by decide)
              (congrArg Id.uuid (ownerSignature.symm.trans same))
          · cases unused.apart 3 (by decide) 4 (by decide)
              (congrArg Id.uuid (orgSignature.symm.trans same))
        have otherKind : RecordKind.user ≠ .org := by decide
        have member : UserRow.ofUser inserted.owner texts ∈ middle.tables.rows .user := by
          have rows : ownerTables.rows .user = _ := owner.rows_eq
          rw [org.rows_of_ne otherKind, rows]
          exact List.mem_append_right _ (List.mem_singleton_self _)
        exact outcome_promoteOwner regularThen
          (regularThen.sound.row?_eq_some_iff.mpr ⟨member, rfl⟩) (sealedFor.openTo rfl) fresh
      rw [Work.outcome_bind promotes, outcome_insertOrg ring new regular.sound linked
        (by rw [named]) (unused.fewer (by decide))]
      cases unlessNamed session.tables.orgs (Text.trim new.name) <;> rfl

end

/-! ## The main statement -/

/-- A new organization has the first identifier that is drawn, and its name without blanks. -/
theorem Directory.createOrg_org
    {ring : KeyRing}
    {new : NewOrg}
    {created : CreatedOrg}
    {before after : Session}
    (given : (createOrg ring new).Gives before created after) :
    created.org.id = ⟨before.uuidAhead 0⟩ ∧ created.org.name = Text.trim new.name := by
  rcases createOrg_gives given with ⟨inserted, middle, final, inserts, promotes, -⟩
  rcases promoteOwner_gives promotes with ⟨mutation, -, rfl⟩
  simp only [insertOrg, Work.gives_bind, Work.gives_freshId, Work.gives_pure] at inserts
  obtain ⟨_, _, ⟨rfl, -⟩, _, _, -, _, _, -, _, _, -, _, _, -, _, _, -, rfl, -⟩ := inserts
  exact ⟨rfl, rfl⟩

theorem Session.HoldsFirst.reads_org
    {ring : KeyRing}
    {begun session : Session}
    {created : CreatedOrg}
    (first : session.HoldsFirst ring begun created) :
    session.tables.org? created.org.id = .ok (some created.org) := by
  have stored : session.tables.row? .org created.org.id.uuid =
      some (OrgRow.ofOrg created.org) :=
    row?_singleton first.org rfl
  exact org?_of_row? stored

namespace Sample

/-- After the first organization was created the identifiers to draw next are new. -/
theorem drawsNew_founding :
    ∃ created,
      ((Session.founded source).after founding).HoldsFirst ring (Session.founded source)
        created ∧
      created.org.id = ⟨(Session.founded source).uuidAhead 0⟩ ∧
      created.org.name = Text.trim newOrg.name ∧
      ((Session.founded source).after founding).DrawsNew 5 := by
  have distinct : (Session.founded source).DrawsApart 10 := by
    unfold Session.DrawsApart
    decide +kernel
  rcases begins with ⟨created, session, creates, first⟩
  have reached : (Session.founded source).after founding = session := by
    rw [founding, Session.after_cons, Session.after_nil, Event.step_performed creates]
  rw [reached]
  simp only [Request.perform, Work.gives_bind, Work.gives_pure] at creates
  obtain ⟨_, _, creates, same, -⟩ := creates
  cases same
  rcases Directory.createOrg_org creates with ⟨orgId, name⟩
  have ownerId := Directory.createOrg_owner_id (Session.sound_founded source) creates
  rcases first.owner with ⟨texts, users, -⟩
  -- The first ten identifiers differ, and the rows hold the first two of them.
  have unnamed {id : Uuid} {count further : Nat} (early : count < 5) (below : further < 5)
      (drawn : id = (Session.founded source).uuidAhead count)
      (same : id = session.uuidAhead further) : False := by
    rw [first.drew.uuidAhead_eq] at same
    have equal := distinct (5 + further) (by omega) count (by omega) (same.symm.trans drawn)
    omega
  refine ⟨created, first, orgId, name, ⟨?_, ?_⟩, ?_⟩
  · intro left leftBelow right rightBelow same
    rw [first.drew.uuidAhead_eq, first.drew.uuidAhead_eq] at same
    have equal := distinct (5 + left) (by omega) (5 + right) (by omega) same
    omega
  · intro further below registered
    rcases first.issued _ registered with ⟨count, early, same⟩
    exact unnamed early below (congrArg Id.uuid same) rfl
  · intro kind further below
    cases kind with
    | org =>
        refine row?_singleton_of_ne first.org fun same => ?_
        exact unnamed (by decide) below (congrArg Id.uuid orgId)
          (congrArg Id.uuid (Cell.holds.inj same))
    | user =>
        refine row?_singleton_of_ne users fun same => ?_
        exact unnamed (by decide) below (congrArg Id.uuid ownerId)
          (congrArg Id.uuid (Cell.holds.inj same))

end Sample

end SealedDirectory
