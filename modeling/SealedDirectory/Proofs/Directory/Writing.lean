import SealedDirectory.Proofs.Directory.Reach
import SealedDirectory.Proofs.Directory.Rewriting
import SealedDirectory.Proofs.Text.Trim
import Mathlib.Logic.Relation

/-!
# What requests write

Requests write organizations and users in four ways only.  An organization is founded
together with its owner; a user joins an organization that is stored; the row of one
organization is rewritten, or the row of one user.  A rewritten row keeps its identifier,
and the row of a user keeps its organization as well.

What is said here about names, owners and members is all that the links between the two
kinds of records rest on.
-/

namespace SealedDirectory

/-! ## Names -/

/-- A name that an organization can have. -/
structure Org.Proper (name : String) : Prop where
  nonempty : name ≠ ""
  trimmed : Text.Trimmed name
  short : name.utf8ByteSize ≤ 100

theorem Org.proper_of_checkName
    {name : String}
    (trimmed : Text.Trimmed name)
    (checked : checkName name = .ok ()) :
    Proper name := by
  rw [checkName, trimmed] at checked
  split at checked
  · cases checked
  · next nonempty =>
      split at checked
      · cases checked
      · next short =>
          refine ⟨?_, trimmed, Nat.le_of_not_lt short⟩
          rintro rfl
          exact nonempty rfl

/-! ## Four ways to write -/

namespace Tables

/-- The row of an organization gives place to another one under the same identifier. -/
structure OrgRewritten (old new : Org) (before after : Tables) : Prop where
  place : ∃ earlier later, before.orgs = earlier ++ OrgRow.ofOrg old :: later ∧
    after.orgs = earlier ++ OrgRow.ofOrg new :: later
  sameId : new.id = old.id
  users : after.users = before.users

/-- The row of a user gives place to another one of the same member. -/
structure UserRewritten (old new : UserRow) (before after : Tables) : Prop where
  place : ∃ earlier later, before.users = earlier ++ old :: later ∧
    after.users = earlier ++ new :: later
  sameId : new.id = old.id
  sameOrg : new.org = old.org
  orgs : after.orgs = before.orgs

/-- A user is stored as a member of an organization. -/
def HasMember (tables : Tables) (user : UserId) (org : OrgId) : Prop :=
  ∃ row ∈ tables.users, row.id = .holds user ∧ row.org = .holds org

/-- One thing that requests write. -/
inductive Writes (before after : Tables) : Prop
  | nothing
      (orgs : after.orgs = before.orgs)
      (users : after.users = before.users)
  | founded
      {org : Org}
      {owner : UserRow}
      (orgs : after.orgs = before.orgs ++ [OrgRow.ofOrg org])
      (users : after.users = before.users ++ [owner])
      (owns : owner.id = .holds org.owner)
      (belongs : owner.org = .holds org.id)
      (proper : Org.Proper org.name)
  | joined
      {user : UserRow}
      (users : after.users = before.users ++ [user])
      (orgs : after.orgs = before.orgs)
      (belongs : ∃ org ∈ before.orgs, org.id = user.org)
  | orgRewritten
      {old new : Org}
      (rewritten : OrgRewritten old new before after)
      (owner : new.owner = old.owner ∨ before.HasMember new.owner old.id)
      (name : new.name = old.name ∨ Org.Proper new.name)
  | userRewritten
      {old new : UserRow}
      (rewritten : UserRewritten old new before after)

end Tables

open Tables

/-! ## Changes -/

namespace Work.Mutates

variable {ring : KeyRing} {expected : Signature} {before after : Session}

/-- A change of an organization takes name and owner from what the change made of it. -/
theorem orgRewritten
    {id : OrgId}
    {change : Org → Work Org}
    {mutation : Mutation Org}
    {old new : (Versioned.kind Org).Row}
    (mutates : Mutates ring id expected change mutation old new before after)
    (sound : before.tables.Sound) :
    ∃ loaded changed stamp,
      loaded.id = id ∧ (change loaded).Gives before changed before ∧
      OrgRewritten loaded { loaded with name := changed.name, owner := changed.owner, stamp }
        before.tables after.tables := by
  obtain ⟨loaded, changed, stamp, found, changes, made⟩ := mutates.made
  have replaced := mutates.replaced
  have stored := org?_eq_some (sound.written .org) found
  obtain rfl : OrgRow.ofOrg loaded = old :=
    Option.some.inj (stored.symm.trans replaced.row?_before)
  rcases replaced.rows_eq with ⟨earlier, later, placedOld, placedNew, -⟩
  rw [mutates.orgOverwritten, made] at placedNew
  have other : RecordKind.user ≠ .org := by decide
  exact ⟨loaded, changed, { stamp with
    created := loaded.stamp.created
    order := loaded.stamp.order
    layout := loaded.stamp.layout }, Cell.holds.inj replaced.id, changes,
    ⟨earlier, later, placedOld, placedNew⟩, rfl, replaced.rows_of_ne other⟩

theorem userRewritten
    {id : UserId}
    {change : User → Work User}
    {mutation : Mutation User}
    {old new : (Versioned.kind User).Row}
    (mutates : Mutates ring id expected change mutation old new before after) :
    UserRewritten old new before.tables after.tables := by
  have replaced := mutates.replaced
  rcases mutates.userOverwritten with ⟨texts, -, isNew⟩
  rcases replaced.rows_eq with ⟨earlier, later, placedOld, placedNew, -⟩
  have other : RecordKind.org ≠ .user := by decide
  exact ⟨⟨earlier, later, placedOld, placedNew⟩, replaced.sameId, by rw [isNew]; rfl,
    replaced.rows_of_ne other⟩

end Work.Mutates

/-! ## Requests -/

namespace Directory

variable {ring : KeyRing} {before after : Session}

/-- A user joins an organization that is stored. -/
theorem createUser_writes
    {org : OrgId}
    {new : NewUser}
    {user : User}
    (sound : before.tables.Sound)
    (given : (createUser ring org new).Gives before user after) :
    Writes before.tables after.tables := by
  have stored : ∃ found, before.tables.org? org = .ok (some found) := by
    simp only [createUser, org?, Work.gives_bind, Work.gives_require, Work.gives_transaction,
      Work.gives_ask, Work.gives_ite, Work.gives_throw, false_and, exists_false, and_false,
      false_or] at given
    rcases given with ⟨-, _, ⟨-, rfl⟩, -, ⟨found, _, ⟨asked, rfl⟩, known, -⟩, -⟩
    cases found with
    | none => simp at known
    | some stored => exact ⟨stored, asked⟩
  rcases stored with ⟨found, asked⟩
  have present := org?_eq_some (sound.written .org) asked
  rcases sound.row?_eq_some_iff.mp present with ⟨inTable, holds⟩
  rcases createUser_gives given with ⟨final, inserts, rfl⟩
  rcases insertUser_gives inserts with ⟨texts, inserted, -, plain⟩
  have ofOrg : user.org = org := congrArg PlainUser.org plain
  have other : RecordKind.org ≠ .user := by decide
  refine .joined inserted.rows_eq (inserted.rows_of_ne other) ⟨_, inTable, ?_⟩
  exact holds.trans (congrArg Cell.holds ofOrg.symm)

/-- What is inserted for a new organization is linked to its owner and has the name. -/
theorem insertOrg_links
    {name : String}
    {new : NewOrg}
    {created : CreatedOrg}
    (given : (insertOrg ring name new).Gives before created after) :
    created.org.owner = created.owner.id ∧ created.org.name = name := by
  simp only [insertOrg, Work.gives_bind, Work.gives_freshId, Work.gives_execute,
    Work.gives_require, Work.gives_pure] at given
  obtain ⟨id, _, ⟨-, rfl⟩, owner, middle, -, stamp, stamped, -, -, _, ⟨-, rfl⟩,
    -, _, ⟨tables, -, rfl⟩, -, _, ⟨final, -, rfl⟩, rfl, rfl⟩ := given
  exact ⟨rfl, rfl⟩

/-- An organization is founded with its owner, whose row is rewritten once. -/
theorem createOrg_writes
    {new : NewOrg}
    {created : CreatedOrg}
    (sound : before.tables.Sound)
    (given : (createOrg ring new).Gives before created after) :
    ∃ middle, Writes before.tables middle ∧ Writes middle after.tables := by
  have named : Org.checkName (Text.trim new.name) = .ok () := by
    simp only [createOrg, Work.gives_bind, Work.gives_require] at given
    obtain ⟨-, _, ⟨checked, -⟩, -⟩ := given
    exact checked
  rcases createOrg_gives given with ⟨inserted, middle, final, inserts, promotes, rfl⟩
  rcases insertOrg_links inserts with ⟨owns, sameName⟩
  rcases insertOrg_gives inserts with ⟨ownerTables, texts, owner, org, -, plain⟩
  have ofOrg : inserted.owner.org = inserted.org.id := congrArg PlainUser.org plain
  have soundThen := (Undergoes.inserted org).sound ((Undergoes.inserted owner).sound sound)
  rcases promoteOwner_gives promotes with ⟨promotion, mutates, -⟩
  rcases Work.mutate_gives (Work.looksAtRecord_pure _) soundThen mutates with
    ⟨old, newRow, promoted⟩
  have otherUser : RecordKind.user ≠ .org := by decide
  have otherOrg : RecordKind.org ≠ .user := by decide
  refine ⟨middle.tables, ?_, .userRewritten promoted.userRewritten⟩
  have orgs : middle.tables.orgs = before.tables.orgs ++ [OrgRow.ofOrg inserted.org] :=
    org.rows_eq.trans (congrArg (· ++ _) (owner.rows_of_ne otherOrg))
  have users : middle.tables.users = before.tables.users ++ [.ofUser inserted.owner texts] :=
    (org.rows_of_ne otherUser).trans owner.rows_eq
  refine .founded orgs users (congrArg Cell.holds owns.symm) (congrArg Cell.holds ofOrg) ?_
  rw [sameName]
  exact Org.proper_of_checkName (Text.trimmed_trim _) named

theorem requireMember_gives_member
    {user : UserId}
    {org : OrgId}
    {value : Unit}
    (sound : before.tables.Sound)
    (given : (requireMember user org).Gives before value after) :
    before.tables.HasMember user org := by
  simp only [requireMember, Work.gives_bind, Work.gives_ask] at given
  rcases given with ⟨found, _, ⟨asked, rfl⟩, rest⟩
  cases found with
  | none => simp at rest
  | some known =>
      simp only [Work.gives_ite, Work.gives_throw, and_false, false_or, ne_eq, not_not] at rest
      obtain ⟨rfl, -⟩ := rest
      rcases mapM_eq_ok_some.mp asked with ⟨row, chosen, read⟩
      have member := List.mem_of_find?_eq_some chosen
      rcases sound.written .user row member with ⟨stored, texts, rfl⟩
      cases read
      exact ⟨_, member, by simpa using List.find?_some chosen, rfl⟩

/-- A change of an organization rewrites its row, with a name and an owner that it may have. -/
theorem mutateOrg_writes
    {id : OrgId}
    {expected : Signature}
    {change : Org → Work Org}
    {mutation : Mutation Org}
    (looks : Work.LooksAtRecord change)
    (sound : before.tables.Sound)
    (given : (Work.mutate ring id expected change).Gives before mutation after)
    (owner : ∀ org changed, (change org).Gives before changed before →
      changed.owner = org.owner ∨ before.tables.HasMember changed.owner id)
    (name : ∀ org changed, (change org).Gives before changed before →
      changed.name = org.name ∨ Org.Proper changed.name) :
    Writes before.tables after.tables := by
  rcases Work.mutate_gives looks sound given with ⟨old, new, mutates⟩
  obtain ⟨loaded, changed, stamp, rfl, changes, rewritten⟩ := mutates.orgRewritten sound
  exact .orgRewritten rewritten (owner loaded changed changes) (name loaded changed changes)

theorem changeUser_writes
    {id : UserId}
    {expected : Signature}
    {change : User → User}
    {mutation : Mutation User}
    (sound : before.tables.Sound)
    (given : (changeUser ring id expected change).Gives before mutation after) :
    Writes before.tables after.tables := by
  rcases Work.gives_transaction.mp given with ⟨middle, changes, rfl⟩
  rcases Work.mutate_gives (Work.looksAtRecord_require _ _ change) sound changes with
    ⟨old, new, mutates⟩
  exact .userRewritten mutates.userRewritten

end Directory

/-- The tables come from others by what requests write. -/
def Tables.WrittenFrom : Tables → Tables → Prop :=
  Relation.ReflTransGen Writes

theorem Request.writtenFrom
    {ring : KeyRing}
    {request : Request}
    {response : Response}
    {before after : Session}
    (sound : before.tables.Sound)
    (given : (request.perform ring).Gives before response after) :
    WrittenFrom before.tables after.tables := by
  cases request with
  | createOrg new =>
      simp only [perform, Work.gives_bind, Work.gives_pure] at given
      rcases given with ⟨created, _, creates, -, rfl⟩
      rcases Directory.createOrg_writes sound creates with ⟨middle, first, second⟩
      exact .tail (.single first) second
  | createUser org new =>
      simp only [perform, Work.gives_bind, Work.gives_pure] at given
      rcases given with ⟨user, _, creates, -, rfl⟩
      exact .single (Directory.createUser_writes sound creates)
  | setOrgStatus id expected status =>
      simp only [perform, Work.gives_bind, Work.gives_pure] at given
      rcases given with ⟨mutation, _, changes, -, rfl⟩
      rcases Work.gives_transaction.mp changes with ⟨middle, mutates, rfl⟩
      rw [Work.tables_commit]
      refine .single (Directory.mutateOrg_writes (Work.looksAtRecord_pure _) sound mutates ?_ ?_)
      · intro org changed sets
        rw [(Work.gives_pure.mp sets).1]
        exact .inl rfl
      · intro org changed sets
        rw [(Work.gives_pure.mp sets).1]
        exact .inl rfl
  | setOwner id expected owner =>
      simp only [perform, Directory.setOwner, Work.gives_bind, Work.gives_pure,
        Work.gives_transaction] at given
      rcases given with ⟨mutation, _, ⟨final, ⟨_, middle, isMember, mutates⟩, rfl⟩, -, rfl⟩
      have member := Directory.requireMember_gives_member sound isMember
      obtain rfl := Directory.requireMember_gives isMember
      rw [Work.tables_commit]
      refine .single (Directory.mutateOrg_writes (Work.looksAtRecord_pure _) sound mutates ?_ ?_)
      · intro org changed sets
        rw [(Work.gives_pure.mp sets).1]
        exact .inr member
      · intro org changed sets
        rw [(Work.gives_pure.mp sets).1]
        exact .inl rfl
  | renameOrg id expected name =>
      simp only [perform, Work.gives_bind, Work.gives_pure] at given
      rcases given with ⟨mutation, _, changes, -, rfl⟩
      rcases Work.gives_transaction.mp changes with ⟨middle, mutates, rfl⟩
      rw [Work.tables_commit]
      refine .single
        (Directory.mutateOrg_writes (Work.looksAtRecord_require _ _ _) sound mutates ?_ ?_)
      · intro org changed renames
        simp only [Work.gives_bind, Work.gives_require, Work.gives_pure] at renames
        obtain ⟨-, _, -, rfl, -⟩ := renames
        exact .inl rfl
      · intro org changed renames
        simp only [Work.gives_bind, Work.gives_require, Work.gives_pure] at renames
        obtain ⟨-, _, ⟨checked, -⟩, rfl, -⟩ := renames
        exact .inr (Org.proper_of_checkName (Text.trimmed_trim _) checked)
  | setDisplayName _ _ _ | setPublicKey _ _ _ | setEmail _ _ _ | setPassword _ _ _
  | setUserStatus _ _ _ | rekey _ _ =>
      simp only [perform, Work.gives_bind, Work.gives_pure] at given
      rcases given with ⟨mutation, _, changes, -, rfl⟩
      exact .single (Directory.changeUser_writes sound changes)

/-! ## Events and runs -/

theorem Tables.Rests.writes
    {before after : Tables}
    (idle : Rests before after) :
    Writes before after :=
  .nothing idle.orgs idle.users

theorem Event.writtenFrom
    {session : Session}
    (event : Event)
    (sound : session.tables.Sound) :
    WrittenFrom session.tables (event.step session).tables := by
  cases event with
  | performed ring request =>
      rcases ran : (request.perform ring).runIn session with ⟨outcome, after⟩
      cases outcome with
      | ok response =>
          rw [step_performed ran]
          exact Request.writtenFrom sound ran
      | error fault =>
          simp only [step, ran]
          exact .single (Request.rests_of_fails ran).writes
  | answered ring query =>
      rw [step, Query.onlyReads]
      exact .refl
  | reopened => exact .single (rests_founded session.tables).writes

theorem Session.writtenFrom_after
    (session : Session)
    (events : List Event)
    (sound : session.tables.Sound) :
    WrittenFrom session.tables (session.after events).tables := by
  induction events generalizing session with
  | nil => exact .refl
  | cons event events ih =>
      have first := event.writtenFrom sound
      exact first.trans (ih (event.step session) ((event.evolves sound).sound sound))

end SealedDirectory
