import SealedDirectory.Proofs.Bytes.Canonical
import SealedDirectory.Proofs.Directory.Founding
import SealedDirectory.Proofs.Directory.Rewriting
import SealedDirectory.Proofs.Key.Exactness

/-!
# Tampering with private texts

Every row of a user that the directory writes holds the texts of that user, sealed under
the current key of the ring it was written with, and beside them their digests.  Somebody
who edits the row can do no more than make it unreadable, or find a text with the digest
of another one.

Nothing is assumed about what is put into the row, about the other rows or about the ring
that reads it: the ciphertexts may come from other rows or other columns, and the version
may be that of another key.  A change of a user loads the user first, so a row that cannot
be read is never written over.

Whether two texts with one digest can be found is not a matter of this theory.
-/

namespace SealedDirectory

open Tables

/-! ## Texts with one digest -/

theorem Bytes.toHex_injective : Function.Injective toHex := by
  intro left right same
  have read := congrArg ofHex? same
  rw [ofHex?_toHex, ofHex?_toHex] at read
  exact Option.some.inj read

/-- Two byte strings that show the digest to be no injection. -/
structure Sha256.Collision (left right : Bytes) : Prop where
  differ : left ≠ right
  sameDigest : digest left = digest right

/-- Two texts are the same, or a collision of the digest. -/
def Indistinct (left right : String) : Prop :=
  left = right ∨ Sha256.Collision (Bytes.ofText left) (Bytes.ofText right)

theorem indistinct_of_fingerprint_eq
    {left right : String}
    (same : fingerprint left = fingerprint right) :
    Indistinct left right := by
  by_cases equal : left = right
  · exact .inl equal
  · exact .inr ⟨Bytes.ofText_injective.ne equal, Bytes.toHex_injective same⟩

/-! ## Rows as they are written -/

/-- The row of a user with its texts sealed under the current key of a ring. -/
def UserRow.SealedBy
    (row : UserRow)
    (writer : KeyRing)
    (user : User) :
    Prop :=
  ∃ texts : SealedTexts, row = .ofUser user texts ∧ texts.SealedFor writer user

/-- Every row of a user was sealed with some ring. -/
def Tables.Sealed (tables : Tables) : Prop :=
  ∀ row ∈ tables.users, ∃ writer user, row.SealedBy writer user

namespace Tables.Sealed

variable {before after : Tables} {ring : KeyRing}

theorem rests
    (isSealed : before.Sealed)
    (idle : Rests before after) :
    after.Sealed := by
  intro row member
  rw [idle.users] at member
  exact isSealed row member

theorem inserted
    {user : User}
    {texts : SealedTexts}
    (isSealed : before.Sealed)
    (inserts : Inserted user.sight (UserRow.ofUser user texts) before after)
    (sealedFor : texts.SealedFor ring user) :
    after.Sealed := by
  intro row member
  have placed : row ∈ before.users ++ [UserRow.ofUser user texts] := inserts.rows_eq ▸ member
  rcases List.mem_append.mp placed with old | new
  · exact isSealed row old
  · exact ⟨ring, user, texts, List.mem_singleton.mp new, sealedFor⟩

/-- A deed to an organization leaves the users alone. -/
theorem toOrg
    {deed : Deed}
    (isSealed : before.Sealed)
    (does : Undergoes before deed after)
    (ofOrg : deed.sight.kind = .org) :
    after.Sealed := by
  intro row member
  rcases (does.altered .user).mem member with old | ⟨-, ofUser, -⟩
  · exact isSealed row old
  · cases ofOrg.symm.trans ofUser

/-- The row of a changed user is sealed with the ring of the change. -/
theorem mutated
    {id : UserId}
    {expected : Signature}
    {change : User → Work User}
    {mutation : Mutation User}
    {old new : (Versioned.kind User).Row}
    {before after : Session}
    (isSealed : before.tables.Sealed)
    (mutates : Work.Mutates ring id expected change mutation old new before after) :
    after.tables.Sealed := by
  rcases mutates.users_eq with ⟨row, earlier, later, texts, -, placedOld, placedNew, sealedFor⟩
  rw [Tables.Sealed, placedOld] at isSealed
  rcases isSealed row (by simp) with ⟨-, stored, oldTexts, rfl, -⟩
  intro other member
  rw [placedNew, List.mem_append, List.mem_cons] at member
  rcases member with inEarlier | rfl | inLater
  · exact isSealed other (List.mem_append_left _ inEarlier)
  · exact ⟨ring, stored.overwritten mutation.record, texts, rfl, sealedFor.overwritten stored⟩
  · exact isSealed other (List.mem_append_right _ (List.mem_cons_of_mem _ inLater))

end Tables.Sealed

/-- An accepted request leaves every row of a user sealed. -/
theorem Request.sealed
    {ring : KeyRing}
    {request : Request}
    {response : Response}
    {before after : Session}
    (given : (request.perform ring).Gives before response after)
    (sound : before.tables.Sound)
    (isSealed : before.tables.Sealed) :
    after.tables.Sealed := by
  cases request with
  | createOrg new =>
      simp only [perform, Work.gives_bind, Work.gives_pure] at given
      rcases given with ⟨created, _, creates, -, rfl⟩
      rcases Directory.createOrg_gives creates with
        ⟨inserted, middle, final, inserts, promotes, rfl⟩
      rcases Directory.insertOrg_gives inserts with ⟨_, texts, owner, org, sealedFor, -⟩
      rcases Directory.promoteOwner_gives promotes with ⟨promotion, mutates, -⟩
      have soundThen := (Undergoes.inserted org).sound ((Undergoes.inserted owner).sound sound)
      rcases Work.mutate_gives (Work.looksAtRecord_pure _) soundThen mutates with
        ⟨old, new, promoted⟩
      rw [Work.tables_commit]
      exact ((isSealed.inserted owner sealedFor).toOrg (.inserted org) rfl).mutated promoted
  | createUser org new =>
      simp only [perform, Work.gives_bind, Work.gives_pure] at given
      rcases given with ⟨user, _, creates, -, rfl⟩
      rcases Directory.createUser_gives creates with ⟨final, inserts, rfl⟩
      rcases Directory.insertUser_gives inserts with ⟨texts, inserted, sealedFor, -⟩
      exact isSealed.inserted inserted sealedFor
  | setOrgStatus id expected status =>
      simp only [perform, Work.gives_bind, Work.gives_pure] at given
      rcases given with ⟨mutation, _, changes, -, rfl⟩
      have changed := Directory.changeOrg_gives (Work.looksAtRecord_pure _) sound changes
      exact isSealed.toOrg changed.undergoes rfl
  | setOwner id expected owner =>
      simp only [perform, Work.gives_bind, Work.gives_pure] at given
      rcases given with ⟨mutation, _, changes, -, rfl⟩
      exact isSealed.toOrg (Directory.setOwner_gives sound changes).undergoes rfl
  | renameOrg id expected name =>
      simp only [perform, Work.gives_bind, Work.gives_pure] at given
      rcases given with ⟨mutation, _, changes, -, rfl⟩
      have changed := Directory.changeOrg_gives (Work.looksAtRecord_require _ _ _) sound changes
      exact isSealed.toOrg changed.undergoes rfl
  | setDisplayName _ _ _ | setPublicKey _ _ _ | setEmail _ _ _ | setPassword _ _ _
  | setUserStatus _ _ _ | rekey _ _ =>
      simp only [perform, Work.gives_bind, Work.gives_pure] at given
      rcases given with ⟨mutation, _, changes, -, rfl⟩
      rcases Work.gives_transaction.mp changes with ⟨middle, mutates, rfl⟩
      rcases Work.mutate_gives (Work.looksAtRecord_require _ _ _) sound mutates with
        ⟨old, new, mutated⟩
      rw [Work.tables_commit]
      exact isSealed.mutated mutated

/-! ## Runs -/

theorem Event.sealed
    {session : Session}
    (event : Event)
    (sound : session.tables.Sound)
    (isSealed : session.tables.Sealed) :
    (event.step session).tables.Sealed := by
  cases event with
  | performed ring request =>
      rcases ran : (request.perform ring).runIn session with ⟨outcome, after⟩
      cases outcome with
      | ok response =>
          rw [step_performed ran]
          exact Request.sealed ran sound isSealed
      | error fault =>
          simp only [step, ran]
          exact isSealed.rests (Request.rests_of_fails ran)
  | answered ring query =>
      rw [step, Query.onlyReads]
      exact isSealed
  | reopened => exact isSealed.rests (rests_founded session.tables)

namespace Session

theorem sealed_run
    {session : Session}
    (events : List Event)
    (sound : session.tables.Sound)
    (isSealed : session.tables.Sealed) :
    (session.after events).tables.Sealed := by
  induction events generalizing session with
  | nil => exact isSealed
  | cons event events ih =>
      exact ih ((event.evolves sound).sound sound) (event.sealed sound isSealed)

/-- In every run from an empty store all rows of users are sealed. -/
theorem sealed_after (source : Source) (events : List Event) :
    ((founded source).after events).tables.Sealed := by
  apply sealed_run events (sound_founded source)
  intro row member
  rw [(blank_founded source).users] at member
  cases member

end Session

/-! ## Rows that somebody edited -/

namespace UserRow

/-- The row with other ciphertexts and another version, beside the same digests. -/
def withCiphertexts
    (row : UserRow)
    (displayName publicKey email : String)
    (keyVersion : Cell KeyVersion) :
    UserRow :=
  { row with displayName, publicKey, email, keyVersion }

/-- The row with other digests, beside the same ciphertexts and version. -/
def withDigests
    (row : UserRow)
    (displayNameDigest publicKeyDigest emailDigest : String) :
    UserRow :=
  { row with displayNameDigest, publicKeyDigest, emailDigest }

end UserRow

/-- A user that was read has texts with the digests of a row that was written for a user. -/
structure User.ReadAs
    (read : User)
    (row : UserRow)
    (user : User) :
    Prop where
  displayNameDigest : fingerprint read.displayName = row.displayNameDigest
  publicKeyDigest : fingerprint read.publicKey = row.publicKeyDigest
  emailDigest : fingerprint read.email = row.emailDigest
  displayName : Indistinct read.displayName user.displayName
  publicKey : Indistinct read.publicKey user.publicKey
  email : Indistinct read.email user.email

/-- What guards the private texts in a row that was written for a user. -/
structure UserRow.Guarded
    (row : UserRow)
    (writer : KeyRing)
    (user : User) :
    Prop where
  ciphertexts :
    ∀ (tables : Tables) (ring : KeyRing) displayName publicKey email keyVersion,
      tables.row? .user user.id.uuid =
          some (row.withCiphertexts displayName publicKey email keyVersion) →
        (∃ fault, tables.user? ring user.id = .error fault) ∨
          ∃ read, tables.user? ring user.id = .ok (some read) ∧ read.ReadAs row user
  digests :
    ∀ (tables : Tables) (ring : KeyRing) displayName publicKey email,
      tables.row? .user user.id.uuid = some (row.withDigests displayName publicKey email) →
        ring.get writer.current = .ok writer.currentKey →
          displayName ≠ row.displayNameDigest ∨ publicKey ≠ row.publicKeyDigest ∨
              email ≠ row.emailDigest →
            tables.user? ring user.id = .error .digestMismatch

/-! ## What an edited row gives -/

/-- A user is read from the row of its identifier, and fails where reading the row fails. -/
theorem Tables.user?_of_stored
    {tables : Tables}
    {id : UserId}
    {row : UserRow}
    (ring : KeyRing)
    (stored : tables.row? .user id.uuid = some row) :
    tables.user? ring id = row.toStored >>= fun kept => some <$> kept.opened ring := by
  have asked : tables.storedUser? id = some <$> row.toStored :=
    congrArg (Option.mapM UserRow.toStored) stored
  rw [user?, asked]
  cases row.toStored <;> rfl

/-- The digests of a row are taken as they stand there. -/
theorem UserRow.digests_of_toStored
    {row : UserRow}
    {stored : StoredUser}
    (read : row.toStored = .ok stored) :
    stored.texts.displayName.digest = row.displayNameDigest ∧
      stored.texts.publicKey.digest = row.publicKeyDigest ∧
      stored.texts.email.digest = row.emailDigest := by
  simp only [toStored, bind_eq_ok] at read
  obtain ⟨_, -, _, -, _, -, _, -, _, -, _, -, _, -, _, -, last⟩ := read
  cases last
  exact ⟨rfl, rfl, rfl⟩

/-- What is read beside a digest has that digest. -/
theorem StoredUser.fingerprints_of_opened
    {stored : StoredUser}
    {ring : KeyRing}
    {read : User}
    (opened : stored.opened ring = .ok read) :
    stored.texts.displayName.digest = fingerprint read.displayName ∧
      stored.texts.publicKey.digest = fingerprint read.publicKey ∧
      stored.texts.email.digest = fingerprint read.email := by
  simp only [StoredUser.opened, bind_eq_ok] at opened
  rcases opened with ⟨displayName, openedName, publicKey, openedKey, email, openedEmail, last⟩
  cases last
  exact ⟨SealedField.fingerprint_of_opened openedName,
    SealedField.fingerprint_of_opened openedKey,
    SealedField.fingerprint_of_opened openedEmail⟩

/-- What was enclosed opens beside its own digest only. -/
theorem SealedField.opened_beside
    {ring writer : KeyRing}
    (holds : ring.get writer.current = .ok writer.currentKey)
    (nonce : Nonce)
    (text digest : String) :
    SealedField.opened ⟨Envelope.enclose writer.currentKey nonce text, digest, writer.current⟩
        ring =
      if digest = fingerprint text then .ok text else .error .digestMismatch := by
  rw [SealedField.opened, holds]
  split
  · next same =>
      rw [same]
      exact Envelope.opened_enclose writer.currentKey nonce text
  · next other => exact Envelope.opened_mismatched nonce other

namespace UserRow.SealedBy

variable
  {tables : Tables}
  {ring writer : KeyRing}
  {user : User}
  {row : UserRow}
  {displayName publicKey email : String}

/-- Whatever stands for the ciphertexts, what is read has the digests that are stored. -/
theorem read_of_withCiphertexts
    {keyVersion : Cell KeyVersion}
    (sealedBy : row.SealedBy writer user)
    (stored : tables.row? .user user.id.uuid =
      some (row.withCiphertexts displayName publicKey email keyVersion)) :
    (∃ fault, tables.user? ring user.id = .error fault) ∨
      ∃ read, tables.user? ring user.id = .ok (some read) ∧ read.ReadAs row user := by
  rcases sealedBy with ⟨texts, rfl, sealedFor⟩
  have digested := sealedFor.digested
  rw [user?_of_stored ring stored]
  cases kept : (withCiphertexts (.ofUser user texts) displayName publicKey email
      keyVersion).toStored with
  | error fault => exact .inl ⟨fault, rfl⟩
  | ok before =>
      rcases digests_of_toStored kept with ⟨nameDigest, keyDigest, addressDigest⟩
      cases opened : before.opened ring with
      | error fault => exact .inl ⟨fault, by simp [bind, Except.bind, opened]⟩
      | ok read =>
          rcases StoredUser.fingerprints_of_opened opened with ⟨name, key, address⟩
          have sameName := name.symm.trans nameDigest
          have sameKey := key.symm.trans keyDigest
          have sameAddress := address.symm.trans addressDigest
          refine .inr ⟨read, by simp [bind, Except.bind, opened], sameName, sameKey,
            sameAddress, ?_, ?_, ?_⟩
          · exact indistinct_of_fingerprint_eq (sameName.trans digested.displayName)
          · exact indistinct_of_fingerprint_eq (sameKey.trans digested.publicKey)
          · exact indistinct_of_fingerprint_eq (sameAddress.trans digested.email)

/-- A digest that is not that of the sealed text beside it is noticed. -/
theorem mismatch_of_withDigests
    (sealedBy : row.SealedBy writer user)
    (stored : tables.row? .user user.id.uuid =
      some (row.withDigests displayName publicKey email))
    (holds : ring.get writer.current = .ok writer.currentKey)
    (other : displayName ≠ row.displayNameDigest ∨ publicKey ≠ row.publicKeyDigest ∨
      email ≠ row.emailDigest) :
    tables.user? ring user.id = .error .digestMismatch := by
  rcases sealedBy with ⟨texts, rfl, current, ⟨first, name⟩, ⟨second, key⟩, ⟨third, address⟩⟩
  have opens (nonce : Nonce) (text digest : String) :=
    SealedField.opened_beside holds nonce text digest
  simp only [ofUser, name, key, address, SealedField.enclose] at other
  have read : (withDigests (.ofUser user texts) displayName publicKey email).toStored = .ok
      { StoredUser.ofUser user texts with
        texts :=
          { displayName := ⟨texts.displayName.ciphertext, displayName, user.keyVersion⟩
            publicKey := ⟨texts.publicKey.ciphertext, publicKey, user.keyVersion⟩
            email := ⟨texts.email.ciphertext, email, user.keyVersion⟩ } } :=
    rfl
  rw [user?_of_stored ring stored, read, current, name, key, address]
  change (StoredUser.opened _ ring >>= fun read => pure (some read)) = _
  rw [StoredUser.opened]
  simp only [SealedField.enclose]
  rw [opens first, opens second, opens third]
  by_cases sameName : displayName = fingerprint user.displayName
  · by_cases sameKey : publicKey = fingerprint user.publicKey
    · have otherAddress : email ≠ fingerprint user.email := by simpa [sameName, sameKey] using other
      rw [if_pos sameName, if_pos sameKey, if_neg otherAddress]
      rfl
    · rw [if_pos sameName, if_neg sameKey]
      rfl
  · rw [if_neg sameName]
    rfl

end UserRow.SealedBy

/-! ## Changes of users that cannot be read -/

section

variable
  {ring : KeyRing}
  {session : Session}
  {fault : Fault}

/-- A change fails as the loading of its record does, before anything is done. -/
theorem Work.mutate_fails_of_unread
    {R : Type}
    [Versioned R]
    {id : Id (Versioned.idKind R)}
    (expected : Signature)
    (change : R → Work R)
    (unread : Versioned.find session.tables ring id = .error fault) :
    (mutate ring id expected change).Fails session fault session := by
  have loads : (load ring id : Work R).runIn session = (.error fault, session) := by
    rw [load, runIn_bind, runIn_ask, unread]
  rw [Fails, mutate, runIn_bind, loads]

/-- A request to change a user fails if the user cannot be read with its ring. -/
theorem Request.fails_of_unread
    {request : Request}
    {id : UserId}
    {signature : Signature}
    (aimed : request.target? = some ⟨.user, id.uuid, signature⟩)
    (unread : session.tables.user? ring id = .error fault) :
    ∃ after, (request.perform ring).Fails session fault after := by
  have changes (named : UserId) (sameId : named.uuid = id.uuid) (expected : Signature)
      (change : User → User) :
      ∃ after, Work.Fails
        (do return Response.changedUser (← Directory.changeUser ring named expected change))
        session fault after := by
    obtain rfl : named = id := congrArg Id.mk sameId
    have fails : (Directory.changeUser ring named expected change).Fails session fault
        (Work.rollback session.tables session) :=
      Work.fails_transaction.mpr ⟨session, Work.mutate_fails_of_unread expected _ unread, rfl⟩
    exact ⟨_, by rw [Work.Fails, Work.runIn_bind, fails]⟩
  cases request with
  | createOrg _ | createUser _ _ | setOrgStatus _ _ _ | setOwner _ _ _ | renameOrg _ _ _ =>
      simp [target?] at aimed
  | setDisplayName _ _ _ | setPublicKey _ _ _ | setEmail _ _ _ | setPassword _ _ _
  | setUserStatus _ _ _ | rekey _ _ =>
      simp only [target?, Option.some.injEq, Sight.mk.injEq, true_and] at aimed
      exact changes _ aimed.1 _ _

end

/-! ## The main statement -/

/--
In every run from an empty store each row of a user was sealed for that user with some
ring, and guards the private texts: with other ciphertexts and another version it is
refused or read as texts with the stored digests, and with other digests it is refused.
In any session at all, a user that cannot be read with a ring cannot be changed with it,
and the attempt leaves records, trail and registry as they are.
-/
theorem tampering_is_detected
    (source : Source)
    (events : List Event) :
    (∀ row ∈ ((Session.founded source).after events).tables.users,
        ∃ writer user, row.SealedBy writer user ∧ row.Guarded writer user) ∧
      ∀ (session : Session) ring (request : Request) (id : UserId) signature fault,
        request.target? = some ⟨.user, id.uuid, signature⟩ →
          session.tables.user? ring id = .error fault →
            ∃ after, (request.perform ring).Fails session fault after ∧
              Rests session.tables after.tables := by
  constructor
  · intro row member
    rcases Session.sealed_after source events row member with ⟨writer, user, sealedBy⟩
    refine ⟨writer, user, sealedBy, ?_, ?_⟩
    · intro tables ring displayName publicKey email keyVersion stored
      exact sealedBy.read_of_withCiphertexts stored
    · intro tables ring displayName publicKey email stored holds other
      exact sealedBy.mismatch_of_withDigests stored holds other
  · intro session ring request id signature fault aimed unread
    rcases Request.fails_of_unread aimed unread with ⟨after, fails⟩
    exact ⟨after, fails, Request.rests_of_fails fails⟩

/-- The first owner is refused once a digest was edited, and so is a change of its status. -/
theorem first_owner_is_guarded :
    ∃ (row : UserRow) (ring : KeyRing) (id : UserId) (edited : Session) (after : Session),
      row ∈ ((Session.founded Sample.source).after
        [.performed Sample.ring (.createOrg Sample.newOrg)]).tables.users ∧
      edited.tables.users =
        [row.withDigests (row.displayNameDigest ++ "0") row.publicKeyDigest row.emailDigest] ∧
      edited.tables.user? ring id = .error .digestMismatch ∧
      ((Request.setUserStatus id ⟨.ofRandom [4]⟩ .active).perform ring).Fails edited
        .digestMismatch after ∧
      after.tables.users = edited.tables.users := by
  rcases Sample.begins with ⟨created, later, given, first⟩
  rcases first.owner with ⟨texts, users, -⟩
  have reached : (Session.founded Sample.source).after
      [.performed Sample.ring (.createOrg Sample.newOrg)] = later := by
    rw [Session.after_cons, Session.after_nil, Event.step_performed given]
  have detected := tampering_is_detected Sample.source
    [.performed Sample.ring (.createOrg Sample.newOrg)]
  have member : UserRow.ofUser created.owner texts ∈ ((Session.founded Sample.source).after
      [.performed Sample.ring (.createOrg Sample.newOrg)]).tables.users := by
    rw [reached, users]
    exact List.mem_singleton_self _
  rcases detected.1 _ member with ⟨writer, user, ⟨sealedTexts, same, -⟩, guarded⟩
  have sameId : created.owner.id = user.id := Cell.holds.inj (congrArg UserRow.id same)
  let row := UserRow.ofUser created.owner texts
  let tampered := row.withDigests (row.displayNameDigest ++ "0") row.publicKeyDigest
    row.emailDigest
  let edited : Session := { later with tables := { later.tables with users := [tampered] } }
  have stored : edited.tables.row? .user user.id.uuid = some tampered :=
    row?_singleton rfl (congrArg Cell.holds sameId)
  have differs : row.displayNameDigest ++ "0" ≠ row.displayNameDigest := by
    intro equal
    have lengths := congrArg String.length equal
    simp at lengths
  have refused := guarded.digests edited.tables writer _ _ _ stored writer.get_current
    (.inl differs)
  rcases detected.2 edited writer (.setUserStatus user.id ⟨.ofRandom [4]⟩ .active) user.id
    ⟨.ofRandom [4]⟩ .digestMismatch rfl refused with ⟨after, fails, rests⟩
  exact ⟨row, writer, user.id, edited, after, member, rfl, refused, fails, rests.users⟩

end SealedDirectory
