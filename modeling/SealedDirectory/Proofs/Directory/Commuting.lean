import SealedDirectory.Proofs.Directory.Stale
import SealedDirectory.Proofs.Directory.Verdict

/-!
# Changes of different records commute

A change of a status, of an owner, of a display name or of a password, and a change to
another key, minds only one record: what comes of it is known from the row of that record,
from the organizations that users are in, and from what is drawn.  A change of another
record leaves all of this alone.  So two such changes come to the same in either order, and
they leave the same tables but for the order of signatures and entries.

Each of the changes draws from a source of its own.  Were there only one source, then the
order of the changes would decide who gets which signature.
-/

namespace SealedDirectory

open Tables

/-! ## Operations that mind one record -/

/-- Two sessions that draw the same, and look the same to who minds only one record. -/
structure Session.Alike (target : RecordKind × Uuid) (left right : Session) : Prop where
  source : left.source = right.source
  drawn : left.drawn = right.drawn
  row : left.tables.row? target.1 target.2 = right.tables.row? target.1 target.2
  members : ∀ user, left.tables.orgOfUser? user = right.tables.orgOfUser? user

/-- What an operation comes to is known from what can be seen of one record. -/
structure Work.Minds
    {α : Type}
    (target : RecordKind × Uuid)
    (work : Work α)
    (loosen : α → α)
    (verdict : Session → Except Fault (α × Amendment)) :
    Prop where
  comes : ∀ session, session.tables.Regular →
    ¬ session.tables.Registered ⟨session.uuidAhead 0⟩ →
    work.ComesTo loosen session (verdict session)
  congr : ∀ left right, Session.Alike target left right → verdict left = verdict right
  /-- Only that record is amended, and the next identifier is issued for it. -/
  amends : ∀ session, session.tables.Sound → ∀ result made,
    verdict session = .ok (result, made) →
    made.target = target ∧ made.issued.signature = .holds ⟨session.uuidAhead 0⟩

namespace Work

section

variable
  {α β : Type}
  {work : Work α}
  {loosen : α → α}
  {session : Session}

theorem ComesTo.outcome_eq
    {verdict : Except Fault (α × Amendment)}
    (comes : work.ComesTo loosen session verdict) :
    (work.runIn session).1.map loosen = verdict.map Prod.fst := by
  cases comes with
  | fails fails idle =>
      rw [fails]
      rfl
  | gives given amended =>
      rw [given]
      rfl

/-- The amendment of an operation, if it is accepted. -/
def amendment? (verdict : Except Fault (α × Amendment)) : Option Amendment :=
  verdict.toOption.map Prod.snd

theorem exists_of_mem_amendment?
    {verdict : Except Fault (α × Amendment)}
    {made : Amendment}
    (member : made ∈ amendment? verdict) :
    ∃ result, verdict = .ok (result, made) := by
  cases verdict with
  | error fault => cases member
  | ok pair =>
      cases member
      exact ⟨pair.1, rfl⟩

theorem ComesTo.amended
    {verdict : Except Fault (α × Amendment)}
    (comes : work.ComesTo loosen session verdict) :
    Amended (amendment? verdict) session.tables (work.runIn session).2.tables := by
  cases comes with
  | fails fails idle =>
      rw [fails]
      exact idle.amended
  | gives given amended =>
      rw [given]
      exact amended

theorem ComesTo.transaction
    {verdict : Except Fault (α × Amendment)}
    (comes : work.ComesTo loosen session verdict) :
    ComesTo (Work.transaction work) loosen session verdict := by
  cases comes with
  | fails fails idle =>
      exact .fails (fails_transaction.mpr ⟨_, fails, rfl⟩) (rests_rollback _)
  | gives given amended =>
      exact .gives (gives_transaction.mpr ⟨_, given, rfl⟩) amended

theorem ComesTo.answered
    {verdict : Except Fault (α × Amendment)}
    {answer : α → β}
    {loosenAnswer : β → β}
    (comes : work.ComesTo loosen session verdict)
    (loosens : ∀ value, loosenAnswer (answer value) = answer (loosen value)) :
    ComesTo (do return answer (← work)) loosenAnswer session
      (verdict.map (Prod.map answer id)) := by
  cases comes with
  | fails fails idle => exact .fails (by rw [Fails, runIn_bind, fails]) idle
  | @gives value amendment after given amended =>
      dsimp only [Except.map, Prod.map]
      rw [← loosens]
      exact .gives (given.bind (pure_succeeds _ _)) amended

theorem ComesTo.guarded
    {guard : Work Unit}
    {check : Except Fault Unit}
    {verdict : Except Fault (α × Amendment)}
    (ran : guard.runIn session = (check, session))
    (comes : work.ComesTo loosen session verdict) :
    ComesTo (do guard; work) loosen session (check >>= fun _ => verdict) := by
  cases check with
  | error fault => exact .fails (by rw [Fails, runIn_bind, ran]) (.refl _)
  | ok passes =>
      have same : (do guard; work : Work α).runIn session = work.runIn session := by
        rw [runIn_bind, ran]
      cases comes with
      | fails fails idle => exact .fails (same.trans fails) idle
      | gives given amended => exact .gives (same.trans given) amended

variable
  {target : RecordKind × Uuid}
  {verdict : Session → Except Fault (α × Amendment)}

theorem Minds.transaction (minds : work.Minds target loosen verdict) :
    Minds target (Work.transaction work) loosen verdict where
  comes := fun session regular fresh => (minds.comes session regular fresh).transaction
  congr := minds.congr
  amends := minds.amends

theorem Minds.answered
    {answer : α → β}
    {loosenAnswer : β → β}
    (minds : work.Minds target loosen verdict)
    (loosens : ∀ value, loosenAnswer (answer value) = answer (loosen value)) :
    Minds target (do return answer (← work)) loosenAnswer
      fun session => (verdict session).map (Prod.map answer id) where
  comes := fun session regular fresh => (minds.comes session regular fresh).answered loosens
  congr := by
    intro left right alike
    rw [minds.congr left right alike]
  amends := by
    intro session sound result made accepted
    cases decided : verdict session with
    | error fault =>
        rw [decided] at accepted
        cases accepted
    | ok pair =>
        rw [decided] at accepted
        cases accepted
        exact minds.amends session sound _ _ decided

/-- A check may look at the organizations of users. -/
theorem Minds.guarded
    {guard : Work Unit}
    {check : Tables → Except Fault Unit}
    (minds : work.Minds target loosen verdict)
    (ran : ∀ session, guard.runIn session = (check session.tables, session))
    (looks : ∀ left right : Tables,
      (∀ user, left.orgOfUser? user = right.orgOfUser? user) → check left = check right) :
    Minds target (do guard; work) loosen
      fun session => check session.tables >>= fun _ => verdict session where
  comes := fun session regular fresh => (minds.comes session regular fresh).guarded (ran session)
  congr := by
    intro left right alike
    rw [minds.congr left right alike, looks _ _ alike.members]
  amends := by
    intro session sound result made accepted
    rcases bind_eq_ok.mp accepted with ⟨-, -, decided⟩
    exact minds.amends session sound result made decided

/-- A change minds its record if it leaves alone the columns that must be unique. -/
theorem mutate_minds
    {R : Type}
    [Versioned R]
    [Kept R]
    [Settled R]
    {change : R → Work R}
    {edit : R → Except Fault R}
    (ring : KeyRing)
    (id : Id (Versioned.idKind R))
    (expected : Signature)
    (edits : Edits change edit)
    (spares : ∀ loaded changed, edit loaded = .ok changed → Settled.Spares loaded changed) :
    (mutate ring id expected change).Minds (Versioned.kind R, id.uuid) Mutation.unordered
      (Work.verdict edit ring id expected) where
  comes := fun _ regular fresh => mutate_comes edits spares regular fresh
  congr := by
    intro left right alike
    exact verdict_congr edit ring expected alike.source alike.drawn alike.row
  amends := fun _ sound _ _ accepted => verdict_eq_ok sound accepted

end

end Work

/-! ## Requests that mind one record -/

/-- The answer without the numbers of its entries. -/
def Response.unordered : Response → Response
  | .created founded => .created founded
  | .added user => .added user
  | .changedOrg mutation => .changedOrg mutation.unordered
  | .changedUser mutation => .changedUser mutation.unordered

namespace Directory

/-- Whether a user is a member of an organization, as it is stored. -/
def memberCheck (user : UserId) (org : OrgId) (tables : Tables) : Except Fault Unit :=
  tables.orgOfUser? user >>= fun
    | some found => if found ≠ org then .error (.invalid (.notMember user org)) else .ok ()
    | none => .error (.notFound .user user.display)

theorem runIn_requireMember
    (user : UserId)
    (org : OrgId)
    (session : Session) :
    (requireMember user org).runIn session =
      (memberCheck user org session.tables, session) := by
  rw [requireMember, Work.runIn_bind, Work.runIn_ask, memberCheck]
  cases session.tables.orgOfUser? user with
  | error fault => rfl
  | ok found =>
      cases found with
      | none => rfl
      | some other =>
          dsimp only [bind, Except.bind]
          split <;> rfl

variable {ring : KeyRing}

theorem changeOrg_minds
    (id : OrgId)
    (expected : Signature)
    (edit : Org → Org)
    (spares : ∀ org : Org, Org.Spares org (edit org)) :
    ∃ verdict, (changeOrg ring id expected fun org => return edit org).Minds (.org, id.uuid)
      Mutation.unordered verdict := by
  have minds := Work.mutate_minds ring id expected (Work.edits_pure edit) (by
    rintro loaded _ ⟨⟩
    exact spares loaded)
  exact ⟨_, minds.transaction⟩

theorem setOwner_minds
    (id : OrgId)
    (expected : Signature)
    (owner : UserId) :
    ∃ verdict, (setOwner ring id expected owner).Minds (.org, id.uuid) Mutation.unordered
      verdict := by
  have minds := Work.mutate_minds ring id expected
    (Work.edits_pure fun org : Org => { org with owner }) (by
      rintro loaded _ ⟨⟩
      exact ⟨rfl, rfl⟩)
  exact ⟨_, (minds.guarded (runIn_requireMember owner id) (by
    intro left right same
    rw [memberCheck, memberCheck, same])).transaction⟩

theorem changeUser_minds
    (id : UserId)
    (expected : Signature)
    (edit : User → User)
    (spares : ∀ user : User, User.Spares user (edit user)) :
    ∃ verdict, (changeUser ring id expected edit).Minds (.user, id.uuid) Mutation.unordered
      verdict := by
  have minds := Work.mutate_minds ring id expected
    (Work.edits_require (fun user => (edit user).check) (fun rule => .invalid (.user rule)) edit)
    (by
      intro loaded changed edited
      cases checked : (edit loaded).check with
      | error rule =>
          rw [checked] at edited
          cases edited
      | ok passes =>
          rw [checked] at edited
          cases edited
          exact spares loaded)
  exact ⟨_, minds.transaction⟩

end Directory

namespace Request

/-- The record that a request is to change. -/
def record? (request : Request) : Option (RecordKind × Uuid) :=
  request.target?.map fun sight => (sight.kind, sight.id)

/-- Changes of one record that leave alone the columns that must be unique. -/
def Sparing : Request → Prop
  | .setOrgStatus _ _ _ | .setOwner _ _ _ | .setDisplayName _ _ _ | .setPassword _ _ _
  | .setUserStatus _ _ _ | .rekey _ _ => True
  | .createOrg _ | .createUser _ _ | .renameOrg _ _ _ | .setPublicKey _ _ _
  | .setEmail _ _ _ => False

theorem minds
    {request : Request}
    (sparing : request.Sparing)
    (ring : KeyRing) :
    ∃ target, request.record? = some target ∧ ∃ verdict,
      (request.perform ring).Minds target Response.unordered verdict := by
  have ofOrg {id : OrgId} {work : Work (Mutation Org)}
      (minds : ∃ verdict, work.Minds (.org, id.uuid) Mutation.unordered verdict) :
      ∃ verdict, Work.Minds (.org, id.uuid) (do return Response.changedOrg (← work))
        Response.unordered verdict :=
    minds.elim fun _ minds => ⟨_, minds.answered fun _ => rfl⟩
  have ofUser {id : UserId} {expected : Signature} (edit : User → User)
      (spares : ∀ user : User, User.Spares user (edit user)) :
      ∃ verdict, Work.Minds (.user, id.uuid)
        (do return Response.changedUser (← Directory.changeUser ring id expected edit))
        Response.unordered verdict :=
    (Directory.changeUser_minds id expected edit spares).elim fun _ minds =>
      ⟨_, minds.answered fun _ => rfl⟩
  cases request with
  | createOrg _ | createUser _ _ | renameOrg _ _ _ | setPublicKey _ _ _ | setEmail _ _ _ =>
      cases sparing
  | setOrgStatus id expected status =>
      let edit (org : Org) : Org := { org with stamp := { org.stamp with status } }
      exact ⟨_, rfl, ofOrg (Directory.changeOrg_minds id expected edit fun _ => ⟨rfl, rfl⟩)⟩
  | setOwner id expected owner =>
      exact ⟨_, rfl, ofOrg (Directory.setOwner_minds id expected owner)⟩
  | setDisplayName id expected name =>
      let edit (user : User) : User := { user with displayName := Text.trim name }
      exact ⟨_, rfl, ofUser edit fun _ => ⟨rfl, rfl, rfl⟩⟩
  | setPassword id expected encoded =>
      let edit (user : User) : User := { user with password := encoded }
      exact ⟨_, rfl, ofUser edit fun _ => ⟨rfl, rfl, rfl⟩⟩
  | setUserStatus id expected status =>
      let edit (user : User) : User := { user with stamp := { user.stamp with status } }
      exact ⟨_, rfl, ofUser edit fun _ => ⟨rfl, rfl, rfl⟩⟩
  | rekey id expected =>
      exact ⟨_, rfl, ofUser (fun user => user) fun _ => ⟨rfl, rfl, rfl⟩⟩

end Request

/-! ## Two requests -/

namespace Session

/-- The session with a source of its own, from which nothing was drawn yet. -/
def supplied (session : Session) (source : Source) : Session :=
  { session with source, drawn := {} }

/-- What a request gives that draws from a source of its own, and the session after it. -/
def serve
    (session : Session)
    (ring : KeyRing)
    (source : Source)
    (request : Request) :
    Except Fault Response × Session :=
  (request.perform ring).runIn (session.supplied source)

variable
  {session : Session}
  {ring : KeyRing}

theorem isOk_serve
    {source : Source}
    {request : Request}
    {response : Response}
    {after : Session}
    (given : (request.perform ring).Gives (session.supplied source) response after) :
    (session.serve ring source request).1.isOk = true := by
  rw [serve, given]
  rfl

theorem regular_serve
    (source : Source)
    (request : Request)
    (regular : session.tables.Regular) :
    (session.serve ring source request).2.tables.Regular := by
  have suppliedRegular : (session.supplied source).tables.Regular := regular
  exact suppliedRegular.evolves ((Event.performed ring request).evolves suppliedRegular.sound)

end Session

/-- After a change of another record a request is served as if there had been none. -/
theorem Work.Minds.served_after
    {session : Session}
    {ring : KeyRing}
    {request other : Request}
    {source otherSource : Source}
    {target otherTarget : RecordKind × Uuid}
    {verdict otherVerdict : Session → Except Fault (Response × Amendment)}
    (minds : (request.perform ring).Minds target Response.unordered verdict)
    (otherMinds : (other.perform ring).Minds otherTarget Response.unordered otherVerdict)
    (apart : otherTarget ≠ target)
    (differ : otherSource.uuid 0 ≠ source.uuid 0)
    (regular : session.tables.Regular)
    (fresh : ¬ session.tables.Registered ⟨source.uuid 0⟩)
    (otherFresh : ¬ session.tables.Registered ⟨otherSource.uuid 0⟩) :
    (request.perform ring).ComesTo Response.unordered
      ((session.serve ring otherSource other).2.supplied source)
      (verdict (session.supplied source)) := by
  let between := (session.serve ring otherSource other).2
  have amended := (otherMinds.comes (session.supplied otherSource) regular otherFresh).amended
  -- Whatever was amended is the other record, under the other identifier.
  have amends : ∀ made ∈ amendment? (otherVerdict (session.supplied otherSource)),
      made.target = otherTarget ∧ made.issued.signature = .holds ⟨otherSource.uuid 0⟩ := by
    intro made isMade
    rcases exists_of_mem_amendment? isMade with ⟨result, accepted⟩
    exact otherMinds.amends (session.supplied otherSource) regular.sound result made accepted
  have freshBetween : ¬ between.tables.Registered ⟨source.uuid 0⟩ := by
    intro registered
    rcases amended.registered_of registered with earlier | ⟨made, isMade, holds⟩
    · exact fresh earlier
    · have issued := Cell.holds.inj ((amends made isMade).2.symm.trans holds)
      exact differ (congrArg Id.uuid issued)
  have alike : Session.Alike target (between.supplied source) (session.supplied source) := {
    source := rfl
    drawn := rfl
    row := amended.row?_of_other fun made isMade =>
      (amends made isMade).1.symm ▸ apart
    members := amended.members }
  rw [← minds.congr _ _ alike]
  exact minds.comes (between.supplied source) (Session.regular_serve otherSource other regular)
    freshBetween

/-! ### Changes that are accepted -/

namespace Session

variable
  {session : Session}
  {ring : KeyRing}
  {source : Source}

/-- The status of a stored organization can be set under a fresh signature. -/
theorem isOk_setOrgStatus
    {org : Org}
    (status : Status)
    (regular : session.tables.Regular)
    (fresh : ¬ session.tables.Registered ⟨source.uuid 0⟩)
    (found : session.tables.org? org.id = .ok (some org)) :
    (session.serve ring source (.setOrgStatus org.id org.stamp.signature status)).1.isOk =
      true := by
  let edit (org : Org) : Org := { org with stamp := { org.stamp with status } }
  have spares : Org.Spares org (edit org) := ⟨rfl, rfl⟩
  have suppliedRegular : (session.supplied source).tables.Regular := regular
  have loaded : Versioned.find (session.supplied source).tables ring org.id = .ok (some org) :=
    found
  obtain ⟨mutation, after, given, -⟩ := Work.mutate_accepted (Work.edits_pure edit)
    suppliedRegular fresh (Work.admitted_of_found loaded rfl) spares
  have sets : (Directory.setOrgStatus ring org.id org.stamp.signature status).Gives
      (session.supplied source) mutation (Work.commit after) :=
    Work.gives_transaction.mpr ⟨after, given, rfl⟩
  exact isOk_serve (sets.bind (Work.pure_succeeds _ _))

/-- So can the status of a stored user whose texts pass the check. -/
theorem isOk_setUserStatus
    {user : User}
    (status : Status)
    (regular : session.tables.Regular)
    (fresh : ¬ session.tables.Registered ⟨source.uuid 0⟩)
    (found : session.tables.user? ring user.id = .ok (some user))
    (checked : user.check = .ok ()) :
    (session.serve ring source (.setUserStatus user.id user.stamp.signature status)).1.isOk =
      true := by
  let edit (user : User) : User := { user with stamp := { user.stamp with status } }
  let edited (user : User) : Except Fault User :=
    ((edit user).check.mapError fun rule => .invalid (.user rule)).map fun _ => edit user
  have spares : User.Spares user (edit user) := ⟨rfl, rfl, rfl⟩
  have passes : edited user = .ok (edit user) := by
    have passes : (edit user).check = .ok () := checked
    simp only [edited, passes]
    rfl
  have suppliedRegular : (session.supplied source).tables.Regular := regular
  have loaded : Versioned.find (session.supplied source).tables ring user.id =
      .ok (some user) :=
    found
  obtain ⟨mutation, after, given, -⟩ := Work.mutate_accepted
    (Work.edits_require (fun user => (edit user).check) _ edit) suppliedRegular fresh
    (Work.admitted_of_found loaded passes) spares
  have sets : (Directory.setUserStatus ring user.id user.stamp.signature status).Gives
      (session.supplied source) mutation (Work.commit after) :=
    Work.gives_transaction.mpr ⟨after, given, rfl⟩
  exact isOk_serve (sets.bind (Work.pure_succeeds _ _))

/-- The statuses of the first organization and of its owner can both be set. -/
theorem HoldsFirst.isOk_setStatuses
    {begun : Session}
    {writer : KeyRing}
    {created : CreatedOrg}
    {otherSource : Source}
    (first : session.HoldsFirst writer begun created)
    (ready : session.Ready ring)
    (status : Status)
    (fresh : ¬ session.tables.Registered ⟨source.uuid 0⟩)
    (otherFresh : ¬ session.tables.Registered ⟨otherSource.uuid 0⟩) :
    ∃ user : User,
      (session.serve ring source (.setOrgStatus created.org.id created.org.stamp.signature
        status)).1.isOk = true ∧
      (session.serve ring otherSource (.setUserStatus user.id user.stamp.signature
        status)).1.isOk = true := by
  have regular := ready.regular
  have storedOrg : session.tables.row? .org created.org.id.uuid =
      some (OrgRow.ofOrg created.org) :=
    row?_singleton first.org rfl
  have foundOrg : session.tables.org? created.org.id = .ok (some created.org) :=
    mapM_eq_ok_some.mpr ⟨_, storedOrg, OrgRow.toOrg_ofOrg created.org⟩
  rcases first.owner with ⟨texts, users, -⟩
  rcases ready.opens (users ▸ List.mem_singleton_self _) with ⟨user, other, opened⟩
  rw [opened.row] at users
  have foundUser := user?_ofUser (row?_singleton users rfl) opened.opens
  exact ⟨user, isOk_setOrgStatus status regular fresh foundOrg,
    isOk_setUserStatus status regular otherFresh foundUser opened.checked⟩

end Session

/-- A source whose identifiers are all the same. -/
def Sample.constant (byte : UInt8) : Source :=
  { Sample.source with uuid := fun _ => .ofRandom [byte] }

/-! ## The main statement -/

/--
Two changes of different records, in any store that a run reaches, each of a status, an
owner, a display name or a password or to another key, under any expected signature, and
each with a source of its own: if the signatures that are drawn for them differ and were
never issued, then in either order each change gives the same record and entries or fails
with the same fault, and the tables are the same in the end.  The numbers of the entries
and the order of entries and of signatures are left aside.
-/
theorem changes_of_different_records_commute
    (source : Source)
    (events : List Event)
    (ring : KeyRing)
    {first second : Request}
    {firstSource secondSource : Source}
    (firstSparing : first.Sparing)
    (secondSparing : second.Sparing)
    (apart : first.record? ≠ second.record?)
    (differ : firstSource.uuid 0 ≠ secondSource.uuid 0)
    (firstFresh : ¬ ((Session.founded source).after events).tables.Registered
      ⟨firstSource.uuid 0⟩)
    (secondFresh : ¬ ((Session.founded source).after events).tables.Registered
      ⟨secondSource.uuid 0⟩) :
    let begun := (Session.founded source).after events
    let firstly := begun.serve ring firstSource first
    let thenSecond := firstly.2.serve ring secondSource second
    let secondly := begun.serve ring secondSource second
    let thenFirst := secondly.2.serve ring firstSource first
    thenFirst.1.map Response.unordered = firstly.1.map Response.unordered ∧
      thenSecond.1.map Response.unordered = secondly.1.map Response.unordered ∧
      thenSecond.2.tables.Agree thenFirst.2.tables := by
  have regular := Session.regular_after source events
  generalize (Session.founded source).after events = begun at *
  rcases first.minds firstSparing ring with ⟨firstTarget, ofFirst, verdict, minds⟩
  rcases second.minds secondSparing ring with ⟨secondTarget, ofSecond, otherVerdict, otherMinds⟩
  have targets : firstTarget ≠ secondTarget := by
    intro same
    exact apart (ofFirst.trans (congrArg some same |>.trans ofSecond.symm))
  -- Each request comes to its verdict, whether it is served before the other one or after it.
  have firstly := minds.comes (begun.supplied firstSource) regular firstFresh
  have secondly := otherMinds.comes (begun.supplied secondSource) regular secondFresh
  have thenFirst := minds.served_after otherMinds targets.symm differ.symm regular firstFresh
    secondFresh
  have thenSecond := otherMinds.served_after minds targets differ regular secondFresh firstFresh
  refine ⟨thenFirst.outcome_eq.trans firstly.outcome_eq.symm,
    thenSecond.outcome_eq.trans secondly.outcome_eq.symm, ?_⟩
  refine Amended.commute ?_ firstly.amended thenSecond.amended secondly.amended thenFirst.amended
  -- The two amendments are of the two records.
  intro one isOne other isOther
  rcases Work.exists_of_mem_amendment? isOne with ⟨_, accepted⟩
  rcases Work.exists_of_mem_amendment? isOther with ⟨_, otherAccepted⟩
  rw [(minds.amends (begun.supplied firstSource) regular.sound _ _ accepted).1,
    (otherMinds.amends (begun.supplied secondSource) regular.sound _ _ otherAccepted).1]
  exact targets

/-- The statuses of the first organization and of its owner are set in either order. -/
theorem first_records_change_in_either_order :
    ∃ first second : Request,
      let begun := (Session.founded Sample.source).after Sample.founding
      let firstly := begun.serve Sample.rotated (Sample.constant 10) first
      let thenSecond := firstly.2.serve Sample.rotated (Sample.constant 11) second
      let secondly := begun.serve Sample.rotated (Sample.constant 11) second
      let thenFirst := secondly.2.serve Sample.rotated (Sample.constant 10) first
      firstly.1.isOk = true ∧ secondly.1.isOk = true ∧
        thenFirst.1.map Response.unordered = firstly.1.map Response.unordered ∧
        thenSecond.1.map Response.unordered = secondly.1.map Response.unordered ∧
        thenSecond.2.tables.Agree thenFirst.2.tables := by
  have ready := Session.ready_after Sample.source Sample.founding Sample.agree_founding
    Sample.opened_by_rotated
  rcases Sample.after_founding with ⟨created, first⟩
  have fresh (byte : UInt8)
      (other : ∀ count < 5,
        (Sample.constant byte).uuid 0 ≠ (Session.founded Sample.source).uuidAhead count) :
      ¬ ((Session.founded Sample.source).after Sample.founding).tables.Registered
        ⟨(Sample.constant byte).uuid 0⟩ := by
    intro registered
    rcases first.issued _ registered with ⟨count, below, same⟩
    exact other count below (congrArg Id.uuid same)
  have freshOrg := fresh 10 (by decide +kernel)
  have freshUser := fresh 11 (by decide +kernel)
  have differ : (Sample.constant 10).uuid 0 ≠ (Sample.constant 11).uuid 0 := by
    decide +kernel
  rcases first.isOk_setStatuses ready .active freshOrg freshUser with
    ⟨user, setsOrg, setsUser⟩
  have apart : (Request.setOrgStatus created.org.id created.org.stamp.signature .active).record? ≠
      (Request.setUserStatus user.id user.stamp.signature .active).record? := by
    intro same
    cases congrArg (Option.map Prod.fst) same
  exact ⟨_, _, setsOrg, setsUser, changes_of_different_records_commute Sample.source
    Sample.founding Sample.rotated trivial trivial apart differ freshOrg freshUser⟩

end SealedDirectory
