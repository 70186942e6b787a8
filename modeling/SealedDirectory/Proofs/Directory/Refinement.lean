import SealedDirectory.Proofs.Directory.Founding
import SealedDirectory.Proofs.Directory.Plain
import SealedDirectory.Proofs.Directory.Rewriting

/-!
# The sealed directory refines the plain one

Every row of a user mirrors what the plain store holds under its identifier: the sealed
texts are opened to it by every ring that has the key of the row's version.  A write
seals all texts anew under the current key of its ring, so the rings of a run need to
agree on the keys that they share, and nothing else is asked of them.  Nonces are drawn
from a source about which nothing is assumed.

The step from one state to the next is proved for each request, and the statement about
runs follows by induction over the events.
-/

namespace SealedDirectory

variable {rings : List KeyRing} {ring : KeyRing} {id : UserId} {row : UserRow}
  {plain : PlainUser} {store : PlainStore}

/-! ## Rows and plain users -/

/-- The row of a user is the plain user, sealed for every ring that has the key. -/
inductive Mirrors (rings : List KeyRing) : UserId → UserRow → PlainUser → Prop
  | sealing {user : User} {texts : SealedTexts}
      (digested : texts.Digested user)
      (opens : ∀ ring ∈ rings, ring.contains user.keyVersion = true →
        texts.OpenTo ring user) :
      Mirrors rings user.id (UserRow.ofUser user texts) (PlainUser.ofUser user)

/-- Row by row, the tables hold the users of a plain store, and no others. -/
def Tables.Refines
    (rings : List KeyRing)
    (tables : Tables)
    (store : PlainStore) :
    Prop :=
  ∀ id : UserId, Option.Rel (Mirrors rings id) (tables.row? .user id.uuid) (store id)

/-- What was sealed with one of the rings is opened by all that have its key. -/
theorem SealedTexts.SealedFor.mirrors
    {user : User}
    {texts : SealedTexts}
    (sealedFor : texts.SealedFor ring user)
    (agree : KeyRing.Agree rings)
    (member : ring ∈ rings) :
    Mirrors rings user.id (UserRow.ofUser user texts) (PlainUser.ofUser user) := by
  refine .sealing sealedFor.digested ?_
  intro reader among contains
  rw [sealedFor.current] at contains
  exact sealedFor.openTo (agree reader among ring member ring.current contains ring.held)

namespace Mirrors

/-- A ring that has the key of the row's version loads the plain user. -/
theorem loads
    {tables : Tables}
    (mirrors : Mirrors rings id row plain)
    (stored : tables.row? .user id.uuid = some row)
    (member : ring ∈ rings)
    (contains : ring.contains plain.keyVersion = true) :
    ∃ user, tables.user? ring id = .ok (some user) ∧ user.id = id ∧
      PlainUser.ofUser user = plain := by
  cases mirrors with
  | @sealing user texts digested opens =>
      exact ⟨user, Tables.user?_ofUser stored (opens ring member contains), rfl, rfl⟩

/-- A ring without the key of the row's version is refused, whatever it is. -/
theorem refuses
    {tables : Tables}
    (mirrors : Mirrors rings id row plain)
    (stored : tables.row? .user id.uuid = some row)
    (lacks : ring.contains plain.keyVersion = false) :
    tables.user? ring id = .error (.keyNotFound plain.keyVersion) := by
  cases mirrors with
  | sealing digested opens => exact Tables.user?_of_not_contains stored lacks

/-- A user that is loaded is the plain one. -/
theorem eq_of_loaded
    {tables : Tables}
    {loaded : User}
    (mirrors : Mirrors rings id row plain)
    (stored : tables.row? .user id.uuid = some row)
    (member : ring ∈ rings)
    (found : tables.user? ring id = .ok (some loaded)) :
    PlainUser.ofUser loaded = plain := by
  cases contains : ring.contains plain.keyVersion with
  | true =>
      rcases mirrors.loads stored member contains with ⟨user, loads, -, same⟩
      cases found.symm.trans loads
      exact same
  | false => cases found.symm.trans (mirrors.refuses stored contains)

theorem keyVersion_eq (mirrors : Mirrors rings id row plain) :
    row.keyVersion = .holds plain.keyVersion := by
  cases mirrors with
  | sealing digested opens => rfl

/-- A row that is written over keeps its user's organization and mirrors the new texts. -/
theorem overwritten
    {changed : User}
    {texts : SealedTexts}
    (mirrors : Mirrors rings id row plain)
    (sealedFor : texts.SealedFor ring changed)
    (sameOrg : changed.org = plain.org)
    (agree : KeyRing.Agree rings)
    (member : ring ∈ rings) :
    Mirrors rings id (row.overwritten changed texts) (.ofUser changed) := by
  cases mirrors with
  | @sealing user earlier digested opens =>
      let written : User :=
        { changed with
          id := user.id
          org := user.org
          stamp := { changed.stamp with
            created := user.stamp.created
            order := user.stamp.order
            layout := user.stamp.layout } }
      have sealedThen : texts.SealedFor ring written :=
        ⟨sealedFor.current, sealedFor.displayName, sealedFor.publicKey, sealedFor.email⟩
      have samePlain : PlainUser.ofUser written = .ofUser changed := by
        rw [PlainUser.ofUser, PlainUser.ofUser, sameOrg]
        rfl
      rw [← samePlain]
      exact sealedThen.mirrors agree member

end Mirrors

/-! ## What a step does -/

namespace Tables.Refines

variable {before after : Tables} {deed : Deed}

theorem empty : Tables.empty.Refines rings .empty :=
  fun _ => .none

/-- What is stored is held by the plain store. -/
theorem held
    {tables : Tables}
    (refines : tables.Refines rings store)
    (stored : tables.row? .user id.uuid = some row) :
    ∃ plain, store id = some plain ∧ Mirrors rings id row plain := by
  have mirrored := refines id
  rw [stored] at mirrored
  generalize store id = held at mirrored ⊢
  cases mirrored with
  | some mirrors => exact ⟨_, rfl, mirrors⟩

/-- Every row of a user mirrors a plain user. -/
theorem held_of_mem
    {tables : Tables}
    (refines : tables.Refines rings store)
    (sound : tables.Sound)
    (member : row ∈ tables.users) :
    ∃ id plain, tables.row? .user id.uuid = some row ∧ store id = some plain ∧
      Mirrors rings id row plain := by
  rcases (sound.written .user row member).holds.1 with ⟨id, holds⟩
  let named : UserId := ⟨id⟩
  have stored : tables.row? .user named.uuid = some row :=
    sound.row?_eq_some_iff.mpr ⟨member, holds⟩
  rcases refines.held stored with ⟨plain, inStore, mirrors⟩
  exact ⟨named, plain, stored, inStore, mirrors⟩

/-- What is not stored is not held by the plain store. -/
theorem not_held
    {tables : Tables}
    (refines : tables.Refines rings store)
    (absent : tables.row? .user id.uuid = none) :
    store id = none := by
  have mirrored := refines id
  rw [absent] at mirrored
  generalize store id = held at mirrored ⊢
  cases mirrored
  rfl

theorem rests
    (refines : before.Refines rings store)
    (idle : Rests before after) :
    after.Refines rings store := by
  intro id
  rw [idle.row?_eq]
  exact refines id

/-- A deed to an organization leaves the users alone. -/
theorem toOrg
    (refines : before.Refines rings store)
    (does : Undergoes before deed after)
    (ofOrg : deed.sight.kind = .org) :
    after.Refines rings store := by
  intro id
  rw [does.row?_of_other (by simp [Deed.concerns, ofOrg])]
  exact refines id

/-- A deed to a user puts what its row mirrors then into the plain store. -/
theorem toUser
    (refines : before.Refines rings store)
    (does : Undergoes before deed after)
    (ofUser : deed.sight.id = id.uuid)
    (stored : after.row? .user id.uuid = some row)
    (mirrors : Mirrors rings id row plain) :
    after.Refines rings (store.put id plain) := by
  intro other
  by_cases same : other = id
  · subst same
    rw [stored, PlainStore.put, Function.update_self]
    exact .some mirrors
  · have differs : id.uuid ≠ other.uuid := fun sameUuid => same (congrArg Id.mk sameUuid.symm)
    rw [does.row?_of_other (by simp [Deed.concerns, ofUser, differs]), PlainStore.put,
      Function.update_of_ne same]
    exact refines other

/-- A new user is put into the plain store. -/
theorem inserted
    {user : User}
    {texts : SealedTexts}
    (refines : before.Refines rings store)
    (inserts : Inserted user.sight (UserRow.ofUser user texts) before after)
    (sealedFor : texts.SealedFor ring user)
    (agree : KeyRing.Agree rings)
    (member : ring ∈ rings) :
    after.Refines rings (store.put user.id (.ofUser user)) :=
  refines.toUser (.inserted inserts) rfl inserts.row?_after (sealedFor.mirrors agree member)

end Tables.Refines

namespace PlainStore

/-- A user that was just put with a ring is under its current version already. -/
theorem rewrite_put
    (sameVersion : plain.keyVersion = ring.current) :
    (store.put id plain).rewrite ring id (fun user => user) = store.put id plain := by
  rw [rewrite, put, Function.update_self, Option.map_some, ← sameVersion,
    Function.update_idem]

end PlainStore

section

variable {before after : Session}

/-- A change of a user that edits its texts edits the plain user, and rewrites it. -/
theorem Work.Mutates.refines
    {expected : Signature}
    {change : User → Work User}
    {edit : PlainUser → PlainUser}
    {mutation : Mutation User}
    {old new : (Versioned.kind User).Row}
    (mutates : Mutates ring id expected change mutation old new before after)
    (edits : ∀ user session changed later, (change user).Gives session changed later →
      PlainUser.ofUser changed = edit (.ofUser user))
    (sameOrg : ∀ user, (edit user).org = user.org)
    (agree : KeyRing.Agree rings)
    (member : ring ∈ rings)
    (refines : before.tables.Refines rings store) :
    after.tables.Refines rings (store.rewrite ring id edit) := by
  obtain ⟨loaded, changed, stamp, found, changes, made⟩ := mutates.made
  rcases mutates.userOverwritten with ⟨texts, sealedFor, rfl⟩
  have storedBefore : before.tables.row? .user id.uuid = some old :=
    mutates.replaced.row?_before
  have storedNow : after.tables.row? .user id.uuid =
      some (UserRow.overwritten old mutation.record texts) :=
    mutates.replaced.row?_after
  rcases refines.held storedBefore with ⟨plain, inStore, mirrors⟩
  have edited : PlainUser.ofUser mutation.record =
      { edit plain with keyVersion := ring.current } := by
    rw [made, ← mirrors.eq_of_loaded storedBefore member found,
      ← edits loaded before changed before changes]
    rfl
  have recordOrg : mutation.record.org = plain.org :=
    (congrArg PlainUser.org edited).trans (sameOrg plain)
  have mirrorsNow := mirrors.overwritten sealedFor recordOrg agree member
  rw [edited] at mirrorsNow
  rw [PlainStore.rewrite, inStore, Option.map_some]
  exact refines.toUser (.changed mutates.replaced) rfl storedNow mirrorsNow

namespace Directory

theorem changeUser_refines
    {expected : Signature}
    {change : User → User}
    {edit : PlainUser → PlainUser}
    {mutation : Mutation User}
    (given : (changeUser ring id expected change).Gives before mutation after)
    (edits : ∀ user, PlainUser.ofUser (change user) = edit (.ofUser user))
    (sameOrg : ∀ user, (edit user).org = user.org)
    (sound : before.tables.Sound)
    (agree : KeyRing.Agree rings)
    (member : ring ∈ rings)
    (refines : before.tables.Refines rings store) :
    after.tables.Refines rings (store.rewrite ring id edit) := by
  rcases Work.gives_transaction.mp given with ⟨middle, changes, rfl⟩
  rcases Work.mutate_gives (Work.looksAtRecord_require _ _ change) sound changes with
    ⟨old, new, mutates⟩
  rw [Work.tables_commit]
  refine mutates.refines ?_ sameOrg agree member refines
  intro user session changed later checked
  simp only [Work.gives_bind, Work.gives_require, Work.gives_pure] at checked
  obtain ⟨-, -, -, rfl, -⟩ := checked
  exact edits user

theorem createUser_refines
    {org : OrgId}
    {new : NewUser}
    {user : User}
    (given : (createUser ring org new).Gives before user after)
    (agree : KeyRing.Agree rings)
    (member : ring ∈ rings)
    (refines : before.tables.Refines rings store) :
    after.tables.Refines rings (store.put user.id (.ofNew org new ring)) := by
  rcases createUser_gives given with ⟨final, inserts, rfl⟩
  rcases insertUser_gives inserts with ⟨texts, inserted, sealedFor, plain⟩
  rw [Work.tables_commit, ← plain]
  exact refines.inserted inserted sealedFor agree member

/-- The owner of a new organization is inserted and then rewritten as it is. -/
theorem createOrg_refines
    {new : NewOrg}
    {created : CreatedOrg}
    (given : (createOrg ring new).Gives before created after)
    (sound : before.tables.Sound)
    (agree : KeyRing.Agree rings)
    (member : ring ∈ rings)
    (refines : before.tables.Refines rings store) :
    after.tables.Refines rings
      (store.put created.owner.id (.ofNew created.org.id new.owner ring)) := by
  rcases createOrg_gives given with ⟨inserted, middle, final, inserts, promotes, rfl⟩
  rcases insertOrg_gives inserts with ⟨ownerTables, texts, owner, org, sealedFor, plain⟩
  rcases promoteOwner_gives promotes with ⟨promotion, mutates, rfl⟩
  have soundOwner := (Tables.Undergoes.inserted owner).sound sound
  have soundOrg := (Tables.Undergoes.inserted org).sound soundOwner
  have refinesOwner := refines.inserted owner sealedFor agree member
  have refinesOrg := refinesOwner.toOrg (.inserted org) rfl
  rcases Work.mutate_gives (Work.looksAtRecord_pure _) soundOrg mutates with
    ⟨old, newRow, promoted⟩
  have sameId : promotion.record.id = inserted.owner.id := promoted.sameId
  have refinesFinal : final.tables.Refines rings
      ((store.put inserted.owner.id (.ofUser inserted.owner)).rewrite ring inserted.owner.id
        fun user => user) := by
    refine promoted.refines ?_ (fun _ => rfl) agree member refinesOrg
    intro user session changed later activates
    obtain ⟨rfl, -⟩ := Work.gives_pure.mp activates
    rfl
  rw [plain, PlainStore.rewrite_put rfl] at refinesFinal
  rw [Work.tables_commit, sameId]
  exact refinesFinal

end Directory

/-- An accepted request does to the tables what it does to the plain store. -/
theorem Request.refines
    {request : Request}
    {response : Response}
    (given : (request.perform ring).Gives before response after)
    (sound : before.tables.Sound)
    (agree : KeyRing.Agree rings)
    (member : ring ∈ rings)
    (refines : before.tables.Refines rings store) :
    after.tables.Refines rings (request.plainly ring store response) := by
  cases request with
  | createOrg new =>
      simp only [perform, Work.gives_bind, Work.gives_pure] at given
      rcases given with ⟨created, _, creates, rfl, rfl⟩
      exact Directory.createOrg_refines creates sound agree member refines
  | createUser org new =>
      simp only [perform, Work.gives_bind, Work.gives_pure] at given
      rcases given with ⟨user, _, creates, rfl, rfl⟩
      exact Directory.createUser_refines creates agree member refines
  | setOrgStatus id expected status =>
      simp only [perform, Work.gives_bind, Work.gives_pure] at given
      rcases given with ⟨mutation, _, changes, rfl, rfl⟩
      have changed := Directory.changeOrg_gives (Work.looksAtRecord_pure _) sound changes
      exact refines.toOrg changed.undergoes rfl
  | setOwner id expected owner =>
      simp only [perform, Work.gives_bind, Work.gives_pure] at given
      rcases given with ⟨mutation, _, changes, rfl, rfl⟩
      exact refines.toOrg (Directory.setOwner_gives sound changes).undergoes rfl
  | renameOrg id expected name =>
      simp only [perform, Work.gives_bind, Work.gives_pure] at given
      rcases given with ⟨mutation, _, changes, rfl, rfl⟩
      have changed := Directory.changeOrg_gives (Work.looksAtRecord_require _ _ _) sound changes
      exact refines.toOrg changed.undergoes rfl
  | setDisplayName _ _ _ | setPublicKey _ _ _ | setEmail _ _ _ | setPassword _ _ _
  | setUserStatus _ _ _ | rekey _ _ =>
      simp only [perform, Work.gives_bind, Work.gives_pure] at given
      rcases given with ⟨mutation, _, changes, rfl, rfl⟩
      exact Directory.changeUser_refines changes (fun _ => rfl) (fun _ => rfl) sound agree
        member refines

end

/-! ## Runs -/

/-- An event does to the tables what it does to the plain store. -/
theorem Event.refines
    {session : Session}
    (event : Event)
    (among : ∀ ring ∈ event.writers, ring ∈ rings)
    (agree : KeyRing.Agree rings)
    (sound : session.tables.Sound)
    (refines : session.tables.Refines rings store) :
    (event.step session).tables.Refines rings (event.plainly session store) := by
  cases event with
  | performed ring request =>
      rcases ran : (request.perform ring).runIn session with ⟨outcome, after⟩
      cases outcome with
      | ok response =>
          rw [step_performed ran, plainly_performed store ran]
          exact Request.refines ran sound agree (among ring (by simp [writers])) refines
      | error fault =>
          simp only [step, plainly, ran]
          exact refines.rests (Request.rests_of_fails ran)
  | answered ring query =>
      rw [step, Query.onlyReads]
      exact refines
  | reopened => exact refines.rests (Tables.rests_founded session.tables)

theorem Session.refines_after
    (session : Session)
    (events : List Event)
    (among : ∀ ring ∈ events.flatMap Event.writers, ring ∈ rings)
    (agree : KeyRing.Agree rings)
    (sound : session.tables.Sound)
    (refines : session.tables.Refines rings store) :
    (session.after events).tables.Refines rings (session.plain store events) := by
  induction events generalizing session store with
  | nil => exact refines
  | cons event events ih =>
      rw [List.flatMap_cons] at among
      apply ih (event.step session)
      · exact fun ring member => among ring (List.mem_append_right _ member)
      · exact (event.evolves sound).sound sound
      · exact event.refines (fun ring member => among ring (List.mem_append_left _ member))
          agree sound refines

/-- After a run from an empty store the rows mirror the plain users of the run. -/
theorem Session.refines_from_empty
    (source : Source)
    (events : List Event)
    (among : ∀ ring ∈ events.flatMap Event.writers, ring ∈ rings)
    (agree : KeyRing.Agree rings) :
    ((Session.founded source).after events).tables.Refines rings
      ((Session.founded source).plain .empty events) :=
  Session.refines_after _ events among agree (Session.sound_founded source)
    (Tables.Refines.empty.rests (Tables.rests_founded .empty))

/-! ## The main statement -/

/-- What a reader with a key ring finds of a user that is stored in a row. -/
structure Reads
    (session : Session)
    (reader : KeyRing)
    (id : UserId)
    (row : UserRow)
    (plain : PlainUser) :
    Prop where
  keyVersion : row.keyVersion = .holds plain.keyVersion
  displayNameDigest : row.displayNameDigest = fingerprint plain.displayName
  publicKeyDigest : row.publicKeyDigest = fingerprint plain.publicKey
  emailDigest : row.emailDigest = fingerprint plain.email
  loads : reader.contains plain.keyVersion = true →
    ∃ user, (Directory.user? reader id).Gives session (some user) session ∧
      user.id = id ∧ PlainUser.ofUser user = plain
  refuses : reader.contains plain.keyVersion = false →
    (Directory.user? reader id).Fails session (.keyNotFound plain.keyVersion) session

theorem Mirrors.reads
    {session : Session}
    {reader : KeyRing}
    (mirrors : Mirrors rings id row plain)
    (stored : session.tables.row? .user id.uuid = some row)
    (member : reader ∈ rings) :
    Reads session reader id row plain := by
  have loads (contains : reader.contains plain.keyVersion = true) :
      ∃ user, (Directory.user? reader id).Gives session (some user) session ∧
        user.id = id ∧ PlainUser.ofUser user = plain := by
    rcases mirrors.loads stored member contains with ⟨user, found, sameId, same⟩
    exact ⟨user, Work.gives_ask.mpr ⟨found, rfl⟩, sameId, same⟩
  have refuses (lacks : reader.contains plain.keyVersion = false) :
      (Directory.user? reader id).Fails session (.keyNotFound plain.keyVersion) session := by
    rw [Work.Fails, Directory.user?, Work.runIn_ask, mirrors.refuses stored lacks]
  cases mirrors with
  | sealing digested opens =>
      exact ⟨rfl, digested.displayName, digested.publicKey, digested.email, loads, refuses⟩

/--
In every run from an empty store, with a key ring for each request, a reader whose ring
agrees with these rings finds exactly the users of the plain store.  A user is loaded as
it was last written if the reader has the key of its row, and otherwise the reader is
told which version is missing.
-/
theorem users_are_read_as_written
    (source : Source)
    (events : List Event)
    (reader : KeyRing)
    (agree : KeyRing.Agree (reader :: events.flatMap Event.writers))
    (id : UserId) :
    Option.Rel (Reads ((Session.founded source).after events) reader id)
      (((Session.founded source).after events).tables.row? .user id.uuid)
      ((Session.founded source).plain .empty events id) := by
  have founded : (Session.founded source).tables.Refines
      (reader :: events.flatMap Event.writers) .empty :=
    Tables.Refines.empty.rests (Tables.rests_founded .empty)
  have refines := Session.refines_after _ events (fun _ => List.mem_cons_of_mem reader) agree
    (Session.sound_founded source) founded
  cases stored : ((Session.founded source).after events).tables.row? .user id.uuid with
  | none =>
      rw [refines.not_held stored]
      exact .none
  | some row =>
      rcases refines.held stored with ⟨plain, inStore, mirrors⟩
      rw [inStore]
      exact .some (mirrors.reads stored (List.mem_cons_self ..))

/-- The ring of the samples after a new key became the current one. -/
def Sample.rotated : KeyRing where
  keys := ⟨[(⟨.ofRandom [0]⟩, .ofRandom [0]), (⟨.ofRandom [1]⟩, .ofRandom [1])], by decide⟩
  current := ⟨.ofRandom [1]⟩
  held := by decide

theorem Sample.agree_rotated : KeyRing.Agree [Sample.rotated, Sample.ring] := by
  have shared (version : KeyVersion) (contains : Sample.ring.contains version = true) :
      Sample.rotated.get version = Sample.ring.get version := by
    have same : ⟨.ofRandom [0]⟩ = version := by
      simpa [KeyRing.contains, Versions.contains, Versions.find?, Sample.ring] using contains
    subst same
    decide +kernel
  intro first firstMember second secondMember version inFirst inSecond
  simp only [List.mem_cons, List.not_mem_nil, or_false] at firstMember secondMember
  rcases firstMember with rfl | rfl <;> rcases secondMember with rfl | rfl
  · rfl
  · exact shared version inSecond
  · exact (shared version inFirst).symm
  · rfl

/-- The owner of the first organization is read after the current key was replaced. -/
theorem first_owner_is_read_after_rotation :
    ∃ events id row plain,
      KeyRing.Agree (Sample.rotated :: events.flatMap Event.writers) ∧
        ((Session.founded Sample.source).after events).tables.row? .user id.uuid = some row ∧
        (Session.founded Sample.source).plain .empty events id = some plain ∧
        Reads ((Session.founded Sample.source).after events) Sample.rotated id row plain ∧
        Sample.rotated.contains plain.keyVersion = true ∧
        plain.keyVersion ≠ Sample.rotated.current := by
  rcases Sample.begins with ⟨created, session, creates, first⟩
  let events : List Event := [.performed Sample.ring (.createOrg Sample.newOrg)]
  have reached : (Session.founded Sample.source).after events = session := by
    rw [Session.after_cons, Session.after_nil, Event.step_performed creates]
  rcases first.owner with ⟨texts, users, -⟩
  have stored : session.tables.row? .user created.owner.id.uuid =
      some (UserRow.ofUser created.owner texts) :=
    Tables.row?_singleton users rfl
  have inStore : (Session.founded Sample.source).plain .empty events created.owner.id =
      some (.ofNew created.org.id Sample.newOrg.owner Sample.ring) := by
    rw [Session.plain, Session.plain, Event.plainly_performed _ creates]
    exact Function.update_self ..
  have read := users_are_read_as_written Sample.source events Sample.rotated
    Sample.agree_rotated created.owner.id
  have contains : Sample.rotated.contains Sample.ring.current = true := by decide +kernel
  have replaced : Sample.ring.current ≠ Sample.rotated.current := by decide +kernel
  rw [inStore, reached, stored] at read
  rw [← reached] at stored
  cases read with
  | some reads =>
      rw [← reached] at reads
      exact ⟨events, _, _, _, Sample.agree_rotated, stored, inStore, reads, contains, replaced⟩

end SealedDirectory
