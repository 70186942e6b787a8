import SealedDirectory.Proofs.Directory.Collision
import SealedDirectory.Proofs.Directory.Frame
import SealedDirectory.Proofs.Directory.Stale

/-!
# What requests about users come to

Whether a request about a user is accepted can be judged from the tables beforehand, and if
it is not, so can the fault.  The judgements below name everything that can go wrong, in the
order in which it is noticed; a request that none of them speaks against is accepted.

A judgement looks at the request, at what the row of the user holds without being opened,
and at the digests of the other members.  That the row can be opened, that its other texts
pass the check again, and that nothing else that must be unique is in the way, is shown of
every store that a run reaches.  The ring has to agree with those of the run, and the
identifiers that are drawn have to be unused.
-/

namespace SealedDirectory

open Tables

/-! ## Judgements -/

/-- What the texts of a new user come to by themselves. -/
def NewUser.unlessUnfit (new : NewUser) : Except Fault Unit :=
  let address := Text.trim new.email
  if (Text.trim new.displayName).isEmpty then .error (.invalid (.user .emptyDisplayName))
  else if (Text.trim new.publicKey).isEmpty then .error (.invalid (.user .emptyPublicKey))
  else if address.isEmpty ∨ ¬ address.toList.contains '@' then
    .error (.invalid (.user (.badEmail address)))
  else if new.password.isEmpty then .error (.invalid (.user .emptyPassword))
  else .ok ()

/-- The check of a new user comes to what is judged of its texts. -/
theorem NewUser.mapError_check (new : NewUser) :
    (new.check.mapError fun rule => .invalid (.user rule)) = new.unlessUnfit := by
  simp only [check, UserRule.check, unlessUnfit]
  split_ifs <;> rfl

namespace Request

/-- The rule that a new value breaks by itself. -/
def brokenRule? : Request → Option UserRule
  | .setDisplayName _ _ name =>
      if (Text.trim name).isEmpty then some .emptyDisplayName else none
  | .setPublicKey _ _ key =>
      if (Text.trim key).isEmpty then some .emptyPublicKey else none
  | .setEmail _ _ email =>
      let address := Text.trim email
      if address.isEmpty ∨ ¬ address.toList.contains '@' then some (.badEmail address) else none
  | .setPassword _ _ encoded =>
      if encoded.isEmpty then some .emptyPassword else none
  | _ => none

/-- The digests that a change of a user writes and that no other member may have. -/
def newDigests : Request → List (DigestColumn × String)
  | .setPublicKey _ _ key => [(.publicKey, fingerprint (Text.trim key))]
  | .setEmail _ _ email => [(.email, fingerprint (Text.trim email))]
  | _ => []

end Request

namespace Tables

/-- What a request for a new member of an organization comes to. -/
def judgeNew
    (tables : Tables)
    (org : OrgId)
    (new : NewUser) :
    Except Fault Unit := do
  new.unlessUnfit
  if (tables.row? .org org.uuid).isNone then .error (.notFound .org org.display)
  else unlessTaken (tables.membersOf org) (memberDigests new.publicKey new.email)

/-- What a request to change a user comes to, from what is stored of the user. -/
def judgeChange
    (tables : Tables)
    (ring : KeyRing)
    (request : Request)
    (id : UserId)
    (expected : Signature) :
    Option StoredUser → Except Fault Unit
  | none => .error (.notFound .user id.display)
  | some stored =>
      if ring.contains stored.keyVersion = false then .error (.keyNotFound stored.keyVersion)
      else if stored.stamp.signature ≠ expected then
        .error (.stale .user id.display expected stored.stamp.signature)
      else
        match request.brokenRule? with
        | some rule => .error (.invalid (.user rule))
        | none =>
            unlessTaken ((tables.membersOf stored.org).filter fun row => row.id ≠ .holds id)
              request.newDigests

end Tables

/-! ## What is known of the new values -/

theorem UserRule.check_eq_ok
    {displayName publicKey email password : String} :
    UserRule.check displayName publicKey email password = .ok () ↔
      (Text.trim displayName).isEmpty = false ∧ (Text.trim publicKey).isEmpty = false ∧
        ¬ ((Text.trim email).isEmpty ∨ ¬ (Text.trim email).toList.contains '@') ∧
        password.isEmpty = false := by
  grind [UserRule.check]

namespace Request

/-- An edited user passes the check unless the new value breaks a rule. -/
theorem check_editedUser
    (request : Request)
    {user : User}
    (checked : user.check = .ok ()) :
    (request.editedUser user).check =
      match request.brokenRule? with
      | some rule => .error rule
      | none => .ok () := by
  rcases UserRule.check_eq_ok.mp checked with ⟨displayName, publicKey, email, password⟩
  have trimmed (text : String) : Text.trim (Text.trim text) = Text.trim text :=
    Text.trimmed_trim text
  cases request <;>
    simp only [editedUser, User.check, UserRule.check, brokenRule?, trimmed, displayName,
      publicKey, email, password, Bool.false_eq_true, if_false]
  all_goals split <;> simp_all

/-- An edited user collides with members only by what is new. -/
theorem collision?_editedUser
    (request : Request)
    {user : User}
    {members : List UserRow}
    (free : collision? members (memberDigests user.publicKey user.email) = none) :
    collision? members
        (memberDigests (request.editedUser user).publicKey (request.editedUser user).email) =
      collision? members request.newDigests := by
  have unshared : ∀ digest ∈ memberDigests user.publicKey user.email,
      (members.any fun row => digest.1.get row == digest.2) = false := by
    simpa [collision?] using free
  have publicKey := unshared (.publicKey, fingerprint user.publicKey) (List.mem_cons_self ..)
  have email := unshared (.email, fingerprint user.email)
    (List.mem_cons_of_mem _ (List.mem_singleton_self _))
  dsimp only at publicKey email
  cases request <;>
    simp only [collision?, memberDigests, newDigests, editedUser, List.find?_cons, List.find?_nil,
      publicKey, email]

/-- A request to change a user is one change, whose result is checked. -/
theorem outcome_of_user
    {request : Request}
    {id : UserId}
    {expected : Signature}
    (aimed : request.target? = some ⟨.user, id.uuid, expected⟩)
    (ring : KeyRing)
    (session : Session) :
    (request.perform ring).outcome session =
      Work.outcome (Directory.changeUser ring id expected request.editedUser) session := by
  cases request with
  | createOrg _ | createUser _ _ | setOrgStatus _ _ _ | setOwner _ _ _ | renameOrg _ _ _ =>
      cases aimed
  | setDisplayName other _ _ | setPublicKey other _ _ | setEmail other _ _
  | setPassword other _ _ | setUserStatus other _ _ | rekey other _ =>
      have same := Option.some.inj aimed
      obtain rfl : other = id := congrArg Id.mk (congrArg Sight.id same)
      obtain rfl := congrArg Sight.signature same
      exact Work.outcome_answered _ _ _

/-- The edited user, if it passes the check. -/
def checkedEdit
    (request : Request)
    (user : User) :
    Except Fault User :=
  ((request.editedUser user).check.mapError fun rule => .invalid (.user rule)).map
    fun _ => request.editedUser user

theorem checkedEdit_eq
    (request : Request)
    {user : User}
    (checked : user.check = .ok ()) :
    request.checkedEdit user =
      match request.brokenRule? with
      | some rule => .error (.invalid (.user rule))
      | none => .ok (request.editedUser user) := by
  rw [checkedEdit, check_editedUser request checked]
  cases request.brokenRule? <;> rfl

theorem id_of_checkedEdit
    {request : Request}
    {user changed : User}
    (edited : request.checkedEdit user = .ok changed) :
    changed.id = user.id := by
  rw [checkedEdit] at edited
  cases checked : (request.editedUser user).check with
  | error rule =>
      rw [checked] at edited
      cases edited
  | ok passes =>
      rw [checked] at edited
      cases edited
      cases request <;> rfl

end Request

/-! ## Stores that a run reaches -/

theorem Tables.storedUser?_of_row?
    {tables : Tables}
    {user : User}
    {texts : SealedTexts}
    (stored : tables.row? .user user.id.uuid = some (UserRow.ofUser user texts)) :
    tables.storedUser? user.id = .ok (some (.ofUser user texts)) :=
  mapM_eq_ok_some.mpr ⟨_, stored, rfl⟩

section

variable
  {rings : List KeyRing}
  {ring : KeyRing}
  {store : PlainStore}
  {session : Session}

/-- A stored user collides with no other member as it is. -/
theorem Tables.Regular.collision?_stored
    {tables : Tables}
    {user : User}
    {texts : SealedTexts}
    {signature : Signature}
    (regular : tables.Regular)
    (stored : UserRow.ofUser user texts ∈ tables.users)
    (digested : texts.Digested user)
    (fresh : ¬ tables.Registered signature) :
    collision? ((tables.membersOf user.org).filter fun row => row.id ≠ .holds user.id)
      (memberDigests user.publicKey user.email) = none := by
  rcases List.append_of_mem stored with ⟨earlier, later, placed⟩
  let renewed : UserRow := { UserRow.ofUser user texts with signature := .holds signature }
  have apart : Apart UserRow.uniques renewed (earlier ++ later) :=
    regular.unambiguous.apart_renewed regular.sound placed rfl rfl rfl rfl rfl rfl fresh
  have distinct : renewed.Distinct (earlier ++ later) :=
    regular.unambiguous.distinct_renewed regular.sound placed rfl rfl rfl fresh
  have unbroken := brokenUnique?_eq_none.mpr apart
  rw [distinct.brokenUnique?_eq rfl digested.publicKey digested.email,
    ← regular.sound.others_eq placed, Option.map_eq_none_iff] at unbroken
  exact unbroken

/-- What comes of a change once the user was loaded. -/
theorem Request.judged_of_found
    {tables : Tables}
    {user : User}
    {expected : Signature}
    (request : Request)
    (found : Versioned.find tables ring user.id = .ok (some user))
    (checked : user.check = .ok ())
    (free : collision? ((tables.membersOf user.org).filter fun row => row.id ≠ .holds user.id)
      (memberDigests user.publicKey user.email) = none) :
    (Work.admitted request.checkedEdit ring user.id expected tables >>= fun (loaded, changed) =>
        unlessTaken ((tables.membersOf loaded.org).filter fun row => row.id ≠ .holds user.id)
          (memberDigests changed.publicKey changed.email)) =
      if user.stamp.signature ≠ expected then
        .error (.stale .user user.id.display expected user.stamp.signature)
      else
        match request.brokenRule? with
        | some rule => .error (.invalid (.user rule))
        | none =>
            unlessTaken ((tables.membersOf user.org).filter fun row => row.id ≠ .holds user.id)
              request.newDigests := by
  have signature : (Versioned.stamp user).signature = user.stamp.signature := rfl
  rw [Work.admitted, found]
  dsimp only
  rw [signature]
  split
  · rfl
  · rw [request.checkedEdit_eq checked]
    cases request.brokenRule? with
    | some rule => rfl
    | none =>
        dsimp only [Except.map, bind, Except.bind]
        rw [unlessTaken, unlessTaken, request.collision?_editedUser free]

/-- A change of a user comes to what is judged from its row. -/
theorem Request.outcome_judged
    {request : Request}
    {id : UserId}
    {expected : Signature}
    (aimed : request.target? = some ⟨.user, id.uuid, expected⟩)
    (regular : session.tables.Regular)
    (member : ring ∈ rings)
    (refines : session.tables.Refines rings store)
    (all : store.All PlainUser.Checked)
    (fresh : ¬ session.tables.Registered ⟨session.uuidAhead 0⟩) :
    ∃ stored?, session.tables.storedUser? id = .ok stored? ∧
      (request.perform ring).outcome session =
        session.tables.judgeChange ring request id expected stored? := by
  have edits : Work.Edits (fun user => do
      Work.require (request.editedUser user).check fun rule => .invalid (.user rule)
      return request.editedUser user) request.checkedEdit :=
    Work.edits_require _ _ _
  have begins : (request.perform ring).outcome session = _ :=
    (outcome_of_user aimed ring session).trans ((Work.outcome_transaction _ _).trans
      (Work.outcome_mutateUser edits (fun _ _ => id_of_checkedEdit) regular fresh))
  rw [begins]
  cases stored : session.tables.row? .user id.uuid with
  | none =>
      have asked : session.tables.storedUser? id = .ok none :=
        congrArg (fun row? : Option UserRow => row?.mapM UserRow.toStored) stored
      have absent : session.tables.user? ring id = .ok none := by
        rw [Tables.user?, asked]
        rfl
      have notFound : Versioned.find session.tables ring id = .ok (none : Option User) := absent
      refine ⟨none, asked, ?_⟩
      rw [Work.admitted, notFound]
      rfl
  | some row =>
      rcases refines.held stored with ⟨plain, inStore, mirrors⟩
      have checked := all id plain inStore
      cases mirrors with
      | @sealing user texts digested opens =>
          refine ⟨some (.ofUser user texts), storedUser?_of_row? stored, ?_⟩
          dsimp only [judgeChange, StoredUser.ofUser]
          split
          · next lacks =>
              have refused : Versioned.find session.tables ring user.id =
                  (.error (.keyNotFound user.keyVersion) : Except Fault (Option User)) :=
                user?_of_not_contains stored lacks
              rw [Work.admitted, refused]
              rfl
          · next contains =>
              have found : Versioned.find session.tables ring user.id = .ok (some user) :=
                user?_ofUser stored (opens ring member (by simpa using contains))
              exact request.judged_of_found found checked (regular.collision?_stored
                (regular.sound.row?_eq_some_iff.mp stored).1 digested fresh)

/-- The identifier that a new user gets is no user's, and so much is drawn fresh after it. -/
structure Session.DrawsUnused (session : Session) : Prop where
  id : session.tables.row? .user (session.uuidAhead 0) = none
  signatures : ∀ further < 2, ¬ session.tables.Registered ⟨session.uuidAhead further⟩

/-- A new member comes to what is judged from the tables. -/
theorem Directory.outcome_createUser
    (ring : KeyRing)
    (org : OrgId)
    (new : NewUser)
    (sound : session.tables.Sound)
    (unused : session.DrawsUnused) :
    Work.outcome (createUser ring org new) session = session.tables.judgeNew org new := by
  have begins : Work.outcome (createUser ring org new) session =
      (new.check.mapError fun rule => .invalid (.user rule)) >>= fun _ =>
        Work.outcome (do
          if (← org? org).isNone then throw (.notFound .org org.display)
          insertUser ring org new) session :=
    (Work.outcome_guarded _ _ _ session).trans
      (congrArg (fun outcome => _ >>= fun _ => outcome) (Work.outcome_transaction _ session))
  rw [begins, new.mapError_check, judgeNew]
  cases new.unlessUnfit with
  | error fault => rfl
  | ok passes =>
      cases stored : session.tables.row? .org org.uuid with
      | none =>
          have asked : session.tables.org? org = .ok none :=
            congrArg (fun row? : Option OrgRow => row?.mapM OrgRow.toOrg) stored
          have looks : (org? org).Gives session none session := Work.gives_ask.mpr ⟨asked, rfl⟩
          exact looks.outcome_bind
      | some row =>
          rcases sound.written .org row (sound.row?_eq_some_iff.mp stored).1 with ⟨held, rfl⟩
          have asked : session.tables.org? org = .ok (some held) :=
            mapM_eq_ok_some.mpr ⟨_, stored, OrgRow.toOrg_ofOrg held⟩
          have looks : (org? org).Gives session (some held) session :=
            Work.gives_ask.mpr ⟨asked, rfl⟩
          exact looks.outcome_bind.trans
            (outcome_insertUser ring org new sound unused.id (unused.signatures 1 (by decide)))

end

/-! ## The main statement -/

/--
In every store that a run from an empty store reaches, with a ring that agrees with those of
the run and with unused identifiers to draw, every request to add or to change a user comes
to what is judged of it from the tables: it is accepted, or it fails with the first fault
that the judgement names, and with no other one.
-/
theorem requests_about_users_come_to_their_judgement
    (source : Source)
    (events : List Event)
    {ring : KeyRing}
    (agree : KeyRing.Agree (ring :: events.flatMap Event.writers))
    (unused : ((Session.founded source).after events).DrawsUnused) :
    let begun := (Session.founded source).after events
    (∀ org new,
      ((Request.createUser org new).perform ring).outcome begun = begun.tables.judgeNew org new) ∧
    ∀ (request : Request) (id : UserId) expected,
      request.target? = some ⟨.user, id.uuid, expected⟩ →
      ∃ stored?, begun.tables.storedUser? id = .ok stored? ∧
        (request.perform ring).outcome begun =
          begun.tables.judgeChange ring request id expected stored? := by
  have regular := Session.regular_after source events
  have among : ∀ writer ∈ events.flatMap Event.writers,
      writer ∈ ring :: events.flatMap Event.writers :=
    fun _ => List.mem_cons_of_mem ring
  have refines := Session.refines_from_empty source events among agree
  have all := Session.allChecked_plain _ events among agree (Session.sound_founded source)
    (Tables.Refines.empty.rests (Tables.rests_founded .empty)) .empty
  constructor
  · intro org new
    exact (Work.outcome_answered _ _ _).trans
      (Directory.outcome_createUser ring org new regular.sound unused)
  · intro request id expected aimed
    exact Request.outcome_judged aimed regular (List.mem_cons_self ..) refines all
      (unused.signatures 0 (by decide))

/-! ## The first organization -/

/-- The owner of a new organization has the second identifier that is drawn. -/
theorem Directory.createOrg_owner_id
    {ring : KeyRing}
    {new : NewOrg}
    {created : CreatedOrg}
    {before after : Session}
    (sound : before.tables.Sound)
    (given : (createOrg ring new).Gives before created after) :
    created.owner.id = ⟨before.uuidAhead 1⟩ := by
  rcases createOrg_gives given with ⟨inserted, middle, final, inserts, promotes, -⟩
  rcases insertOrg_gives inserts with ⟨_, _, owner, org, -⟩
  have soundThen := (Undergoes.inserted org).sound ((Undergoes.inserted owner).sound sound)
  rcases promoteOwner_gives promotes with ⟨mutation, mutates, rfl⟩
  rcases Work.mutate_gives (Work.looksAtRecord_pure _) soundThen mutates with ⟨_, _, promoted⟩
  refine promoted.sameId.trans ?_
  simp only [insertOrg, insertUser, Work.gives_bind, Work.gives_freshId, Work.gives_pure]
    at inserts
  obtain ⟨_, _, ⟨-, rfl⟩, _, _, ⟨_, _, ⟨rfl, -⟩, _, _, -, _, _, -, _, _, -, rfl, -⟩, _, _, -, _, _,
    -, _, _, -, _, _, -, rfl, -⟩ := inserts
  rfl

/-- With a ring that opens all rows the owner of the first organization is found current. -/
theorem Session.HoldsFirst.judgeChange_owner
    {ring reader : KeyRing}
    {begun session : Session}
    {created : CreatedOrg}
    {stored? : Option StoredUser}
    (first : session.HoldsFirst ring begun created)
    (opened : session.tables.OpenedBy reader)
    (asked : session.tables.storedUser? created.owner.id = .ok stored?)
    (request : Request) :
    session.tables.judgeChange reader request created.owner.id created.owner.stamp.signature
        stored? =
      match request.brokenRule? with
      | some rule => .error (.invalid (.user rule))
      | none =>
          unlessTaken ((session.tables.membersOf created.owner.org).filter
            fun row => row.id ≠ .holds created.owner.id) request.newDigests := by
  rcases first.owner with ⟨texts, users, -⟩
  have read := storedUser?_of_row? (row?_singleton users rfl)
  obtain rfl := Except.ok.inj (asked.symm.trans read)
  have member : UserRow.ofUser created.owner texts ∈ session.tables.users := by
    rw [users]
    exact List.mem_singleton_self _
  have contains : ¬ reader.contains created.owner.keyVersion = false := by
    simpa using opened _ member _ rfl
  dsimp only [judgeChange, StoredUser.ofUser]
  rw [if_neg contains, if_neg (by simp)]

namespace Sample

/-- After the first organization was created the identifiers to draw next are unused. -/
theorem drawsUnused_founding : ((Session.founded source).after founding).DrawsUnused := by
  have distinct : (Session.founded source).DrawsApart 7 := by
    unfold Session.DrawsApart
    decide +kernel
  rcases begins with ⟨created, session, creates, first⟩
  have reached : (Session.founded source).after founding = session := by
    rw [founding, Session.after_cons, Session.after_nil, Event.step_performed creates]
  rw [reached]
  have ownerId : created.owner.id = ⟨(Session.founded source).uuidAhead 1⟩ := by
    simp only [Request.perform, Work.gives_bind, Work.gives_pure] at creates
    obtain ⟨_, _, creates, same, -⟩ := creates
    cases same
    exact Directory.createOrg_owner_id (Session.sound_founded source) creates
  rcases first.owner with ⟨texts, users, -⟩
  constructor
  · rw [row?, show session.tables.rows .user = _ from users, first.drew.uuidAhead_eq]
    apply List.find?_eq_none.mpr
    intro row member same
    obtain rfl := List.mem_singleton.mp member
    have sameId : created.owner.id = ⟨(Session.founded source).uuidAhead 5⟩ :=
      Cell.holds.inj (of_decide_eq_true same)
    cases distinct 1 (by decide) 5 (by decide) (congrArg Id.uuid (ownerId.symm.trans sameId))
  · intro further below registered
    rcases first.issued _ registered with ⟨count, belowFive, same⟩
    rw [first.drew.uuidAhead_eq] at same
    have equal := distinct (5 + further) (by omega) count (by omega) (congrArg Id.uuid same)
    omega

end Sample

/-- The owner of the first organization is changed, or the change is refused with its reason. -/
theorem first_owner_is_judged :
    ∃ owner : User,
      let begun := (Session.founded Sample.source).after Sample.founding
      KeyRing.Agree (Sample.rotated :: Sample.founding.flatMap Event.writers) ∧
      begun.DrawsUnused ∧
      ((Request.rekey owner.id owner.stamp.signature).perform Sample.rotated).outcome begun =
        .ok () ∧
      ((Request.setDisplayName owner.id owner.stamp.signature " ").perform
        Sample.rotated).outcome begun = .error (.invalid (.user .emptyDisplayName)) := by
  rcases Sample.after_founding with ⟨created, first⟩
  have judged := (requests_about_users_come_to_their_judgement Sample.source Sample.founding
    Sample.agree_founding Sample.drawsUnused_founding).2
  refine ⟨created.owner, Sample.agree_founding, Sample.drawsUnused_founding, ?_, ?_⟩
  · rcases judged (.rekey _ _) _ _ rfl with ⟨stored?, asked, outcome⟩
    rw [outcome, first.judgeChange_owner Sample.opened_by_rotated asked]
    rfl
  · rcases judged (.setDisplayName _ _ " ") _ _ rfl with ⟨stored?, asked, outcome⟩
    rw [outcome, first.judgeChange_owner Sample.opened_by_rotated asked]
    rfl

end SealedDirectory
