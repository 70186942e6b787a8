import SealedDirectory.Proofs.Directory.Texts
import SealedDirectory.Proofs.Directory.Unambiguous
import SealedDirectory.Proofs.Text.Trim
import Mathlib.Data.List.Nodup

/-!
# Trimmed texts

Changes of a user trim the texts that they write.  The texts of a new user are checked as
if they were trimmed, and are then written as they came.  So the private texts of all users
are trimmed after every run in which new users come with trimmed texts, and only there can
two members of one organization not have the same address up to blanks.
-/

namespace SealedDirectory

variable {ring : KeyRing} {store : PlainStore}

/-! ## Texts without blanks at their ends -/

/-- The private texts of a plain user have no blanks at their ends. -/
structure PlainUser.Tidy (user : PlainUser) : Prop where
  displayName : Text.Trimmed user.displayName
  publicKey : Text.Trimmed user.publicKey
  email : Text.Trimmed user.email

/-- The private texts of a new user come without blanks at their ends. -/
structure NewUser.Tidy (new : NewUser) : Prop where
  displayName : Text.Trimmed new.displayName
  publicKey : Text.Trimmed new.publicKey
  email : Text.Trimmed new.email

/-- The new users of a request come with trimmed texts. -/
def Request.Tidy : Request → Prop
  | .createOrg new => new.owner.Tidy
  | .createUser _ new => new.Tidy
  | _ => True

/-- Changes trim their texts, so only new users can bring blanks. -/
theorem Request.allTidy
    {request : Request}
    (response : Response)
    (tidy : request.Tidy)
    (all : store.All PlainUser.Tidy) :
    (request.plainly ring store response).All PlainUser.Tidy := by
  have kept (id : UserId) : ∀ user, store id = some user → user.Tidy :=
    fun user held => all id user held
  cases request with
  | createOrg new =>
      cases response with
      | created created => exact all.put ⟨tidy.displayName, tidy.publicKey, tidy.email⟩
      | added _ | changedOrg _ | changedUser _ => exact all
  | createUser org new =>
      cases response with
      | added user => exact all.put ⟨tidy.displayName, tidy.publicKey, tidy.email⟩
      | created _ | changedOrg _ | changedUser _ => exact all
  | setOrgStatus _ _ _ | setOwner _ _ _ | renameOrg _ _ _ => exact all
  | setDisplayName id expected name =>
      exact all.rewrite fun user held =>
        ⟨Text.trimmed_trim name, (kept id user held).publicKey, (kept id user held).email⟩
  | setPublicKey id expected key =>
      exact all.rewrite fun user held =>
        ⟨(kept id user held).displayName, Text.trimmed_trim key, (kept id user held).email⟩
  | setEmail id expected email =>
      exact all.rewrite fun user held =>
        ⟨(kept id user held).displayName, (kept id user held).publicKey,
          Text.trimmed_trim email⟩
  | setPassword id _ _ | setUserStatus id _ _ | rekey id _ =>
      exact all.rewrite fun user held =>
        ⟨(kept id user held).displayName, (kept id user held).publicKey,
          (kept id user held).email⟩

/-! ## Users that are read -/

section

variable {session : Session} {rings : List KeyRing} {reader : KeyRing} {user other : User}

/-- A user that is read is the plain one. -/
theorem Tables.Refines.plain_of_read
    {id : UserId}
    (refines : session.tables.Refines rings store)
    (sound : session.tables.Sound)
    (among : reader ∈ rings)
    (read : (Directory.user? reader id).Gives session (some user) session) :
    store id = some (.ofUser user) := by
  have found := (Work.gives_ask.mp read).1
  rcases Tables.user?_eq_some (sound.written .user) found with ⟨row, stored, -⟩
  rcases refines.held stored with ⟨plain, inStore, mirrors⟩
  rw [inStore, mirrors.eq_of_loaded stored among found]

/-- Two users of one organization that are read have different public keys and addresses. -/
theorem Tables.Unambiguous.texts_ne
    {id another : UserId}
    (unambiguous : session.tables.Unambiguous)
    (sound : session.tables.Sound)
    (read : (Directory.user? reader id).Gives session (some user) session)
    (readOther : (Directory.user? reader another).Gives session (some other) session)
    (sameOrg : user.org = other.org)
    (differ : id ≠ another) :
    user.publicKey ≠ other.publicKey ∧ user.email ≠ other.email := by
  rcases Tables.user?_eq_some (sound.written .user) (Work.gives_ask.mp read).1 with
    ⟨row, stored, texts, rfl, digested⟩
  rcases Tables.user?_eq_some (sound.written .user) (Work.gives_ask.mp readOther).1 with
    ⟨otherRow, storedOther, otherTexts, rfl, otherDigested⟩
  rcases sound.row?_eq_some_iff.mp stored with ⟨member, holds⟩
  rcases sound.row?_eq_some_iff.mp storedOther with ⟨otherMember, otherHolds⟩
  have apart : UserRow.ofUser user texts ≠ UserRow.ofUser other otherTexts := by
    intro same
    have sameId := holds.symm.trans ((congrArg UserRow.id same).trans otherHolds)
    exact differ (Cell.holds.inj sameId)
  constructor
  · intro sameKey
    apply apart
    apply List.inj_on_of_nodup_map (unambiguous.nodup_publicKeys sound) member otherMember
    simp [UserRow.ofUser, digested.publicKey, otherDigested.publicKey, User.publicKeyDigest,
      sameOrg, sameKey]
  · intro sameEmail
    apply apart
    apply List.inj_on_of_nodup_map (unambiguous.nodup_emails sound) member otherMember
    simp [UserRow.ofUser, digested.email, otherDigested.email, User.emailDigest, sameOrg,
      sameEmail]

end

/-! ## The main statement -/

/-- The texts that a reader finds are trimmed, and members differ in them up to blanks. -/
structure ReadsTidy
    (reader : KeyRing)
    (session : Session) :
    Prop where
  tidy : ∀ id user, (Directory.user? reader id).Gives session (some user) session →
    (PlainUser.ofUser user).Tidy
  apart : ∀ id user another other,
    (Directory.user? reader id).Gives session (some user) session →
      (Directory.user? reader another).Gives session (some other) session →
        user.org = other.org → id ≠ another →
          Text.trim user.publicKey ≠ Text.trim other.publicKey ∧
            Text.trim user.email ≠ Text.trim other.email

/--
In every run from an empty store in which new users come with trimmed texts, the private
texts of all users are trimmed.  So no two users of one organization have public keys or
addresses that are the same up to blanks around them.
-/
theorem texts_are_trimmed_if_new_ones_are
    (source : Source)
    (events : List Event)
    (reader : KeyRing)
    (agree : KeyRing.Agree (reader :: events.flatMap Event.writers))
    (tidy : ∀ ring request, .performed ring request ∈ events → request.Tidy) :
    ReadsTidy reader ((Session.founded source).after events) := by
  have evolves := Session.evolves_from_empty source events
  have sound := evolves.sound .empty
  have unambiguous := Tables.Unambiguous.empty.evolves evolves
  have refines := Session.refines_from_empty source events
    (fun _ => List.mem_cons_of_mem reader) agree
  have allTidy : ((Session.founded source).plain .empty events).All PlainUser.Tidy := by
    refine Session.all_plain _ events ?_ .empty
    intro ring request performed store response
    exact request.allTidy response (tidy ring request performed)
  have texts (id : UserId) (user : User)
      (read : (Directory.user? reader id).Gives ((Session.founded source).after events)
        (some user) ((Session.founded source).after events)) :
      (PlainUser.ofUser user).Tidy :=
    allTidy id _ (refines.plain_of_read sound (List.mem_cons_self ..) read)
  refine ⟨texts, ?_⟩
  intro id user another other read readOther sameOrg differ
  have tidyUser := texts id user read
  have tidyOther := texts another other readOther
  rcases unambiguous.texts_ne sound read readOther sameOrg differ with ⟨keys, emails⟩
  exact ⟨fun same => keys (tidyUser.publicKey.eq_of_trim_eq tidyOther.publicKey same),
    fun same => emails (tidyUser.email.eq_of_trim_eq tidyOther.email same)⟩

/-- What is read of the owner after a first organization with acceptable texts. -/
theorem Sample.reads_owner
    (new : NewOrg)
    (named : Org.checkName (Text.trim new.name) = .ok ())
    (checked : new.owner.check = .ok ()) :
    ∃ (id : UserId) (org : OrgId) (user : User),
      let session := (Session.founded Sample.source).after
        [.performed Sample.ring (.createOrg new)]
      (Directory.user? Sample.ring id).Gives session (some user) session ∧
        PlainUser.ofUser user = .ofNew org new.owner Sample.ring := by
  have apart : (Session.founded Sample.source).DrawsApart 5 := by
    intro first below second belowSecond
    exact drawsApart_source first (by omega) second (by omega)
  rcases first_request_succeeds Sample.source Sample.ring new named checked apart with
    ⟨created, session, creates, first⟩
  rcases first.owner with ⟨texts, users, opens⟩
  have stored : session.tables.row? .user created.owner.id.uuid =
      some (UserRow.ofUser created.owner texts) :=
    Tables.row?_singleton users rfl
  have read : (Directory.user? Sample.ring created.owner.id).Gives session
      (some created.owner) session :=
    Work.gives_ask.mpr ⟨Tables.user?_ofUser stored opens, rfl⟩
  have alone : KeyRing.Agree [Sample.ring] := agree_rotated.mono (by simp)
  have refines := Request.refines creates (Session.sound_founded Sample.source) alone
    (List.mem_singleton_self _) (Tables.Refines.empty.rests (Tables.rests_founded .empty))
  have plain := refines.plain_of_read first.sound (List.mem_singleton_self _) read
  rw [Request.plainly, PlainStore.put, Function.update_self, Option.some.injEq] at plain
  refine ⟨created.owner.id, created.org.id, created.owner, ?_, plain.symm⟩
  rw [Session.after_cons, Session.after_nil, Event.step_performed creates]
  exact read

/-- The texts of the sample owner are read back as they came, without blanks. -/
theorem sample_texts_are_trimmed :
    ∃ events id user,
      KeyRing.Agree (Sample.ring :: events.flatMap Event.writers) ∧
        (∀ ring request, .performed ring request ∈ events → request.Tidy) ∧
        ReadsTidy Sample.ring ((Session.founded Sample.source).after events) ∧
        (Directory.user? Sample.ring id).Gives ((Session.founded Sample.source).after events)
          (some user) ((Session.founded Sample.source).after events) ∧
        user.email = "d@e" := by
  let events : List Event := [.performed Sample.ring (.createOrg Sample.newOrg)]
  have agree : KeyRing.Agree (Sample.ring :: events.flatMap Event.writers) :=
    Sample.agree_rotated.mono (by simp [events, Event.writers])
  have tidy : ∀ ring request, .performed ring request ∈ events → request.Tidy := by
    intro ring request performed
    rw [List.mem_singleton] at performed
    cases performed
    refine ⟨?_, ?_, ?_⟩ <;> decide +kernel
  rcases Sample.reads_owner Sample.newOrg (by decide +kernel) (by decide +kernel) with
    ⟨id, org, user, read, plain⟩
  exact ⟨events, id, user, agree, tidy,
    texts_are_trimmed_if_new_ones_are Sample.source events Sample.ring agree tidy, read,
    congrArg PlainUser.email plain⟩

/-- An owner whose address came with a blank before it still has that blank. -/
theorem padded_address_is_kept :
    ∃ events id user,
      (Directory.user? Sample.ring id).Gives ((Session.founded Sample.source).after events)
        (some user) ((Session.founded Sample.source).after events) ∧
      user.email = " d@e" ∧ ¬ Text.Trimmed user.email := by
  let padded : NewOrg :=
    { Sample.newOrg with owner := { Sample.newOrg.owner with email := " d@e" } }
  rcases Sample.reads_owner padded (by decide +kernel) (by decide +kernel) with
    ⟨id, org, user, read, plain⟩
  have kept : user.email = " d@e" := congrArg PlainUser.email plain
  refine ⟨_, id, user, read, kept, ?_⟩
  rw [kept, Text.Trimmed]
  decide +kernel

end SealedDirectory
