import SealedDirectory.Proofs.Directory.Membership
import SealedDirectory.Proofs.Trail.Refusal

/-!
# Bringing users to the current version

All users that are sealed under other versions than the current one of a ring can be brought
to it one after the other.  Each of these changes succeeds: the texts of the user open and
pass the check, its row is apart from all others since only its signature is new, and the
trail knows of neither signature.  The changes do not disturb each other, since each leaves
all other users alone.  What is assumed is that the ring has the keys of all rows and agrees
with the rings that wrote them, and that the signatures that are drawn are fresh.
-/

namespace SealedDirectory

open Tables

/-! ## Fresh signatures -/

/-- The next identifiers, so many of them, differ and were never issued as signatures. -/
structure Session.DrawsFresh
    (session : Session)
    (count : Nat) :
    Prop where
  apart : session.DrawsApart count
  unissued : ∀ further < count, ¬ session.tables.Registered ⟨session.uuidAhead further⟩

/-- After one of them was issued the others are still fresh. -/
theorem Session.DrawsFresh.rest
    {before after : Session}
    {count : Nat}
    (fresh : before.DrawsFresh (count + 1))
    (drew : before.Drew 1 after)
    (issued : ∀ signature, after.tables.Registered signature ↔
      before.tables.Registered signature ∨ ⟨before.uuidAhead 0⟩ = signature) :
    after.DrawsFresh count where
  apart := by
    intro first firstBelow second secondBelow same
    rw [drew.uuidAhead_eq, drew.uuidAhead_eq] at same
    have equal := fresh.apart (1 + first) (by omega) (1 + second) (by omega) same
    omega
  unissued := by
    intro further below registered
    rw [drew.uuidAhead_eq] at registered
    rcases (issued _).mp registered with earlier | same
    · exact fresh.unissued (1 + further) (by omega) earlier
    · have equal := fresh.apart 0 (by omega) (1 + further) (by omega) (congrArg Id.uuid same)
      omega

/-! ## Rows under a new signature -/

/-- A stored row stays apart from all others with a new signature and its texts sealed anew. -/
theorem Tables.Unambiguous.apart_renewed
    {tables : Tables}
    {earlier later : List UserRow}
    {old new : UserRow}
    {signature : Signature}
    (unambiguous : tables.Unambiguous)
    (sound : tables.Sound)
    (placed : tables.users = earlier ++ old :: later)
    (sameId : new.id = old.id)
    (sameOrg : new.org = old.org)
    (sameOrder : new.order = old.order)
    (samePublicKey : new.publicKeyDigest = old.publicKeyDigest)
    (sameEmail : new.emailDigest = old.emailDigest)
    (renewed : new.signature = .holds signature)
    (fresh : ¬ tables.Registered signature) :
    Apart UserRow.uniques new (earlier ++ later) := by
  apply unambiguous.apart_alike .user placed
  intro (unique : Unique UserRow) (rule : unique ∈ UserRow.uniques) other member apart
  simp only [UserRow.uniques, List.mem_cons, List.not_mem_nil, or_false] at rule
  rcases rule with rfl | rfl | rfl | rfl | rfl
  · simpa only [sameOrg, samePublicKey] using apart
  · simpa only [sameOrg, sameEmail] using apart
  · have apartNow := sound.clashes_fresh .user member fresh
    rwa [← renewed] at apartNow
  · simpa only [sameOrder] using apart
  · simpa only [sameId] using apart

/-! ## One user -/

/-- A user that was brought to another version, and what was written and noted then. -/
structure Rekeying where
  user : User
  version : KeyVersion
  /-- When the user is said to have been changed. -/
  changed : Int
  signature : Signature
  /-- The place of the entry in the trail. -/
  order : Int
  noted : Int

namespace Rekeying

/-- The user under the new version, with a new signature and nothing else changed. -/
def result (move : Rekeying) : User :=
  { move.user with
    keyVersion := move.version
    stamp := { move.user.stamp with changed := move.changed, signature := move.signature } }

/-- The entry that tells of the new version. -/
def entry (move : Rekeying) : Entry :=
  { kind := .user
    entity := move.user.id.bare
    column := "key_version"
    oldTime := move.user.stamp.changed
    newTime := move.changed
    oldSignature := move.user.stamp.signature
    newSignature := move.signature
    details :=
      { old := .text move.user.keyVersion.bare
        new := .text move.version.bare }
    order := move.order
    time := move.noted }

/-- A stale user is read before with a ring, and as the result of the move after it. -/
structure Brings
    (move : Rekeying)
    (ring : KeyRing)
    (before after : Session) :
    Prop where
  version : move.version = ring.current
  stale : move.user.keyVersion ≠ ring.current
  read : (Directory.user? ring move.user.id).Gives before (some move.user) before
  readNow : (Directory.user? ring move.user.id).Gives after (some move.result) after
  fresh : ¬ before.tables.Registered move.signature

end Rekeying

/-! ## Tables and sessions to start from -/

/-- What every run keeps of the tables, and what a change needs of them to succeed. -/
structure Tables.Regular (tables : Tables) : Prop where
  sound : tables.Sound
  enrolled : tables.Enrolled
  unambiguous : tables.Unambiguous
  traced : ∃ entries, tables.Traced entries

theorem Tables.Regular.evolves
    {before after : Tables}
    {deeds : List Deed}
    (regular : before.Regular)
    (evolves : Evolves before deeds after) :
    after.Regular where
  sound := evolves.sound regular.sound
  enrolled := regular.enrolled.evolves evolves
  unambiguous := regular.unambiguous.evolves evolves
  traced := by
    rcases regular.traced with ⟨entries, traced⟩
    exact traced.evolves evolves regular.sound regular.enrolled

/-- Every run leaves regular tables. -/
theorem Session.regular_after
    (source : Source)
    (events : List Event) :
    ((founded source).after events).tables.Regular := by
  have empty : Tables.empty.Regular := ⟨.empty, .empty, .empty, _, .empty⟩
  exact empty.evolves (evolves_from_empty source events)

/-- A session from which a ring can bring users to its current version. -/
structure Session.Ready
    (session : Session)
    (ring : KeyRing) :
    Prop where
  sound : session.tables.Sound
  enrolled : session.tables.Enrolled
  unambiguous : session.tables.Unambiguous
  ascending : session.tables.Ascending
  traced : ∃ entries, session.tables.Traced entries
  plain : ∃ rings store, KeyRing.Agree rings ∧ ring ∈ rings ∧
    session.tables.Refines rings store ∧ store.All PlainUser.Checked
  opened : session.tables.OpenedBy ring

/-- The row of a user that a ring opens, with texts that pass the check. -/
structure UserRow.Opened
    (row : UserRow)
    (ring : KeyRing)
    (user : User)
    (texts : SealedTexts) :
    Prop where
  row : row = .ofUser user texts
  opens : texts.OpenTo ring user
  digested : texts.Digested user
  checked : user.check = .ok ()

namespace Session.Ready

variable {ring : KeyRing} {session after : Session}

theorem regular (ready : session.Ready ring) : session.tables.Regular :=
  ⟨ready.sound, ready.enrolled, ready.unambiguous, ready.traced⟩

theorem opens
    {row : UserRow}
    (ready : session.Ready ring)
    (member : row ∈ session.tables.users) :
    ∃ user texts, row.Opened ring user texts := by
  rcases ready.plain with ⟨rings, store, -, among, refines, all⟩
  rcases refines.held_of_mem ready.sound member with ⟨id, plain, -, inStore, mirrors⟩
  have checked := all id plain inStore
  have contains := ready.opened row member
  cases mirrors with
  | @sealing user texts digested opens =>
      exact ⟨user, texts, rfl, opens ring among (contains _ rfl), digested, checked⟩

/-- A user that was brought to the current version leaves the session ready. -/
theorem rekeyed
    {id : UserId}
    {expected : Signature}
    {mutation : Mutation User}
    (ready : session.Ready ring)
    (given : (Directory.rekey ring id expected).Gives session mutation after)
    (opened : after.tables.OpenedBy ring) :
    after.Ready ring := by
  let request : Request := .rekey id expected
  have performed : (request.perform ring).Gives session (.changedUser mutation) after :=
    given.bind (Work.pure_succeeds _ _)
  let event : Event := .performed ring request
  have reached : event.step session = after := Event.step_performed performed
  have evolves := event.evolves ready.sound
  rw [reached] at evolves
  have regular := ready.regular.evolves evolves
  rcases ready.plain with ⟨rings, store, agree, among, refines, all⟩
  exact {
    sound := regular.sound
    enrolled := regular.enrolled
    unambiguous := regular.unambiguous
    ascending := evolves.ascending ready.sound ready.ascending
    traced := regular.traced
    plain := ⟨rings, _, agree, among,
      Request.refines performed ready.sound agree among refines,
      Request.allChecked performed ready.sound among refines all⟩
    opened }

end Session.Ready

/-- An entry shows the times and signatures of the records whose rows it tells of. -/
theorem Entry.TellsOf.stamps_eq
    {R : Type}
    [Versioned R]
    {before after : R}
    {old new : (Versioned.kind R).Row}
    {id : Uuid}
    {entry : Entry}
    (tells : entry.TellsOf (Versioned.kind R) id ((Versioned.kind R).contents old)
      ((Versioned.kind R).contents new))
    (showsOld : Shows before old)
    (showsNew : Shows after new) :
    entry.oldTime = (Versioned.stamp before).changed ∧
      entry.newTime = (Versioned.stamp after).changed ∧
      entry.oldSignature = (Versioned.stamp before).signature ∧
      entry.newSignature = (Versioned.stamp after).signature := by
  have oldTime := tells.oldTime
  have newTime := tells.newTime
  have oldSignature := tells.oldSignature
  have newSignature := tells.newSignature
  rw [RecordKind.value_changed, showsOld.changed] at oldTime
  rw [RecordKind.value_changed, showsNew.changed] at newTime
  rw [RecordKind.value_signature, showsOld.signature] at oldSignature
  rw [RecordKind.value_signature, showsNew.signature] at newSignature
  exact ⟨(Content.integer.inj oldTime).symm, (Content.integer.inj newTime).symm,
    (Id.bare_injective (Content.text.inj oldSignature)).symm,
    (Id.bare_injective (Content.text.inj newSignature)).symm⟩

/-- A change that only sets another version is noted by one entry. -/
theorem Rekeying.entries_eq
    {move : Rekeying}
    {old new : RecordKind.Row .user}
    {entries : List Entry}
    (told : TellAll .user move.user.id.uuid (RecordKind.contents .user old)
      (RecordKind.contents .user new) entries)
    (showsOld : Shows move.user old)
    (showsNew : Shows move.result new)
    (differ : move.user.keyVersion ≠ move.version) :
    ∃ order noted, entries = [{ move with order, noted }.entry] := by
  have columns : entries.map Entry.column = ["key_version"] := by
    have bare : move.user.keyVersion.bare ≠ move.version.bare :=
      fun same => differ (Id.bare_injective same)
    have changed := columns_changes showsOld showsNew
    refine told.columns.trans (changed.symm.trans ?_)
    simp [changes, Versioned.watched, User.watched, Watch.change?, result, bare,
      User.publicKeyDigest, User.displayNameDigest]
  rcases List.map_eq_singleton_iff.mp columns with ⟨entry, rfl, column⟩
  have tells := told.each entry (List.mem_singleton_self _)
  obtain ⟨oldTime, newTime, oldSignature, newSignature⟩ := tells.stamps_eq showsOld showsNew
  -- What is told of the column are the versions of the user before and after the change.
  have watched : ⟨"key_version", fun user => .text user.keyVersion.bare⟩ ∈ User.watched :=
    List.mem_of_getElem? (i := 2) rfl
  have oldValue := tells.oldValue
  have newValue := tells.newValue
  rw [column] at oldValue newValue
  have details : entry.details = ⟨.text move.user.keyVersion.bare, .text move.version.bare⟩ := by
    have oldVersion := oldValue.trans (showsOld.watched _ watched)
    have newVersion := newValue.trans (showsNew.watched _ watched)
    exact congrArg₂ Details.mk oldVersion newVersion
  refine ⟨entry.order, entry.time, ?_⟩
  cases entry with
  | mk =>
      rw [List.singleton_inj, Rekeying.entry, Entry.mk.injEq]
      exact ⟨tells.kind, tells.entity, column, oldTime, newTime, oldSignature, newSignature,
        details, rfl, rfl⟩

/-! ## One user is brought to the current version -/

/-- Users were brought to the current version of a ring, and everybody else was left alone. -/
structure Moved
    (ring : KeyRing)
    (before after : Session)
    (moves : List Rekeying) :
    Prop where
  brings : ∀ move ∈ moves, move.Brings ring before after
  others : ∀ id : UserId, (∀ move ∈ moves, move.user.id ≠ id) →
    after.tables.row? .user id.uuid = before.tables.row? .user id.uuid
  ids : after.tables.users.map UserRow.id = before.tables.users.map UserRow.id
  orgs : after.tables.orgs = before.tables.orgs
  issued : ∀ signature, before.tables.Registered signature → after.tables.Registered signature
  trail : after.tables.trail =
    before.tables.trail ++ moves.map fun move => EntryRow.ofEntry move.entry

/-- How one user among others is brought to the current version of a ring. -/
structure Rekeying.Happens
    (move : Rekeying)
    (ring : KeyRing)
    (earlier later : List UserRow)
    (before after : Session) :
    Prop where
  given : (Directory.rekeyNow ring move.user.id).Gives before () after
  ready : after.Ready ring
  moved : Moved ring before after [move]
  users : ∃ texts, after.tables.users = earlier ++ UserRow.ofUser move.result texts :: later
  drew : before.Drew 1 after
  registered : ∀ signature, after.tables.Registered signature ↔
    before.tables.Registered signature ∨ ⟨before.uuidAhead 0⟩ = signature

theorem Work.gives_discard
    {α : Type}
    {work : Work α}
    {value : α}
    {before after : Session}
    (given : work.Gives before value after) :
    Work.Gives (discard work) before () after := by
  have same : (discard work : Work PUnit) = work >>= fun _ => pure () := by
    rw [bind_pure_comp]
    rfl
  rw [same]
  exact given.bind (Work.pure_succeeds _ _)

section

variable {ring : KeyRing} {session : Session} {earlier later : List UserRow} {user : User}
  {texts : SealedTexts}

/-- A ring that has the keys of all rows still has them when one is under its current version. -/
theorem Tables.OpenedBy.renewed
    {before after : Tables}
    {old new : UserRow}
    (opened : before.OpenedBy ring)
    (placed : before.users = earlier ++ old :: later)
    (users : after.users = earlier ++ new :: later)
    (current : new.keyVersion = .holds ring.current) :
    after.OpenedBy ring := by
  intro other inTable version holds
  rw [users] at inTable
  rcases List.mem_cons.mp (List.perm_middle.mem_iff.mp inTable) with rfl | inRest
  · rw [← Cell.holds.inj (current.symm.trans holds)]
    exact ring.held
  · apply opened other _ version holds
    rw [placed]
    exact List.perm_middle.mem_iff.mpr (List.mem_cons_of_mem _ inRest)

theorem Tables.Replaced.ids_eq
    {before after : Tables}
    {sight : Sight}
    {signature : Signature}
    {entries : List Entry}
    {old new : sight.kind.Row}
    (replaced : Replaced sight signature entries old new before after) :
    (after.rows sight.kind).map sight.kind.idCell =
      (before.rows sight.kind).map sight.kind.idCell := by
  rcases replaced.rows_eq with ⟨earlier, later, placed, users, -⟩
  rw [placed, users, List.map_append, List.map_append, List.map_cons, List.map_cons,
    replaced.sameId]

/-- A change of one user that is noted by one entry leaves everybody else alone. -/
theorem Tables.Replaced.moved
    {move : Rekeying}
    {after : Session}
    {expected signature : Signature}
    {entries : List Entry}
    {old new : RecordKind.Row .user}
    (replaced : Replaced ⟨.user, move.user.id.uuid, expected⟩ signature entries old new
      session.tables after.tables)
    (brings : move.Brings ring session after)
    (noted : entries = [move.entry]) :
    Moved ring session after [move] where
  brings := by
    intro other isMove
    rw [List.mem_singleton.mp isMove]
    exact brings
  others := by
    intro id other
    apply (Undergoes.changed replaced).row?_of_other
    have differs : move.user.id.uuid ≠ id.uuid := fun same =>
      other _ (List.mem_singleton_self _) (congrArg Id.mk same)
    simp [Deed.concerns, Deed.sight, differs]
  ids := replaced.ids_eq
  orgs := by
    have other : RecordKind.org ≠ .user := by decide
    exact replaced.rows_of_ne other
  issued := fun signature earlier =>
    ((Undergoes.changed replaced).registered_iff signature).mpr (.inl earlier)
  trail := by
    rw [replaced.trail_eq, noted]
    rfl

/-- The user is written over its row under the current version. -/
theorem Session.Ready.overwrites
    (ready : session.Ready ring)
    (placed : session.tables.users = earlier ++ UserRow.ofUser user texts :: later)
    (digested : texts.Digested user)
    (fresh : ¬ session.tables.Registered ⟨session.uuidAhead 0⟩) :
    ∃ renewed written,
      (Versioned.overwrite ring (Work.renewal ring session user user)
        user.stamp.signature).Gives (Work.afterUuid (Work.afterClock session)) true written ∧
      renewed.OpenTo ring (Work.renewal ring session user user) ∧
      written.tables.users =
        earlier ++ UserRow.ofUser (Work.renewal ring session user user) renewed :: later ∧
      session.Drew 1 written := by
  have underCurrent : (Work.renewal ring session user user).keyVersion = ring.current := rfl
  have others := ready.sound.others_ne .user placed rfl
  have overwrites := User.overwrite_succeeds (Work.afterUuid (Work.afterClock session))
    (Work.renewal ring session user user) earlier later placed rfl rfl others underCurrent (by
      intro renewed digestedNow
      exact ready.unambiguous.apart_renewed ready.sound placed rfl rfl rfl
        (digestedNow.publicKey.trans digested.publicKey.symm)
        (digestedNow.email.trans digested.email.symm) rfl fresh)
  exact ⟨_, _, overwrites, User.openTo_sealedTexts _ underCurrent, rfl, rfl, rfl⟩

namespace Directory

/-- The change to the current version succeeds for a stored user. -/
theorem rekey_succeeds
    (ready : session.Ready ring)
    (placed : session.tables.users = earlier ++ UserRow.ofUser user texts :: later)
    (opened : (UserRow.ofUser user texts).Opened ring user texts)
    (fresh : ¬ session.tables.Registered ⟨session.uuidAhead 0⟩) :
    ∃ mutation after renewed,
      (rekey ring user.id user.stamp.signature).Gives session mutation after ∧
      mutation.record = Work.renewal ring session user user ∧
      renewed.OpenTo ring mutation.record ∧
      after.tables.users = earlier ++ UserRow.ofUser mutation.record renewed :: later ∧
      session.Drew 1 after := by
  have stored := ready.sound.row?_of_placed .user placed rfl
  have found : Versioned.find session.tables ring user.id = .ok (some user) :=
    user?_ofUser stored opened.opens
  let change (user : User) : Work User := do
    Work.require user.check fun rule => .invalid (.user rule)
    return user
  have changes : (change user).Gives session user session :=
    (Work.require_succeeds session opened.checked).bind (Work.pure_succeeds _ _)
  obtain ⟨renewed, written, overwrites, opens, users, drew⟩ :=
    ready.overwrites placed opened.digested fresh
  rcases ready.traced with ⟨entries, traced⟩
  have unnoted (columns : List String) : session.tables.Unnoted user.stamp.signature
      ⟨session.uuidAhead 0⟩ columns :=
    traced.unnoted (ready.sound.row?_eq_some_iff.mp stored).1 rfl fresh columns
  obtain ⟨mutation, final, mutates, record, rows, drewAll⟩ :=
    Work.mutate_succeeds ready.sound found changes overwrites drew fresh unnoted
  have usersNow : final.tables.users = written.tables.users := rows .user
  rw [← record] at opens users
  exact ⟨mutation, Work.commit final, renewed, Work.gives_transaction.mpr ⟨final, mutates, rfl⟩,
    record, opens, usersNow.trans users, drewAll.source, drewAll.uuid⟩

/-- A user that was brought to the current version was replaced by what is answered. -/
theorem rekey_gives
    {id : UserId}
    {expected : Signature}
    {mutation : Mutation User}
    {after : Session}
    (sound : session.tables.Sound)
    (given : (rekey ring id expected).Gives session mutation after) :
    ∃ old new : RecordKind.Row .user,
      Replaced ⟨.user, id.uuid, expected⟩ mutation.record.stamp.signature mutation.entries
        old new session.tables after.tables ∧
      Shows mutation.record new := by
  rcases Work.gives_transaction.mp given with ⟨middle, changes, rfl⟩
  rcases Work.mutate_gives (Work.looksAtRecord_require _ _ fun user => user) sound changes with
    ⟨old, new, mutates⟩
  exact ⟨old, new, mutates.replaced, mutates.shows⟩

/-- A stale user whose row opens is brought to the current version. -/
theorem rekeyNow_succeeds
    (ready : session.Ready ring)
    (placed : session.tables.users = earlier ++ UserRow.ofUser user texts :: later)
    (opened : (UserRow.ofUser user texts).Opened ring user texts)
    (stale : user.keyVersion ≠ ring.current)
    (fresh : ¬ session.tables.Registered ⟨session.uuidAhead 0⟩) :
    ∃ after, ∃ move : Rekeying, move.user = user ∧ move.version = ring.current ∧
      move.Happens ring earlier later session after := by
  have sound := ready.sound
  have found : Versioned.find session.tables ring user.id = .ok (some user) :=
    user?_ofUser (sound.row?_of_placed .user placed rfl) opened.opens
  obtain ⟨mutation, after, renewed, given, record, opensNow, users, drew⟩ :=
    rekey_succeeds ready placed opened fresh
  rcases rekey_gives sound given with ⟨old, new, replaced, showsNew⟩
  have does := Undergoes.changed replaced
  -- Its one entry tells of the version; all else of the user is as it was.
  let move : Rekeying :=
    { user
      version := ring.current
      changed := max (session.source.clock session.drawn.clock).seconds user.stamp.changed
      signature := ⟨session.uuidAhead 0⟩
      order := 0
      noted := 0 }
  have result : mutation.record = move.result := record
  rcases Kept.found (sound.written .user) found with ⟨shown, storedShown, showsOld⟩
  obtain rfl : old = shown := Option.some.inj (replaced.row?_before.symm.trans storedShown)
  rw [result] at replaced does showsNew opensNow users
  rcases Rekeying.entries_eq replaced.told showsOld showsNew stale with
    ⟨order, noted, sameEntries⟩
  have storedNow := (does.sound sound).row?_of_placed .user users rfl
  have requires : (requireUser ring user.id).Gives session user session :=
    Work.gives_load.mpr ⟨found, rfl⟩
  have brings : Rekeying.Brings { move with order, noted } ring session after :=
    { version := rfl
      stale
      read := Work.gives_ask.mpr ⟨found, rfl⟩
      readNow := Work.gives_ask.mpr ⟨user?_ofUser storedNow opensNow, rfl⟩
      fresh }
  exact ⟨after, { move with order, noted }, rfl, rfl, {
    given := requires.bind (Work.gives_discard given)
    ready := ready.rekeyed given (ready.opened.renewed placed users rfl)
    moved := replaced.moved brings sameEntries
    users := ⟨renewed, users⟩
    drew
    registered := fun signature => does.registered_iff signature }⟩

end Directory

end

end SealedDirectory
