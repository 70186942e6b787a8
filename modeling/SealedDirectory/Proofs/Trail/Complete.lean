import SealedDirectory.Proofs.Directory.Founding

/-!
# The trail is complete

Whatever a change does to a record, the trail afterwards is the trail before with one
entry for every watched column whose stored value became another one, and with nothing
else.  The entries are read off the records that were loaded and written; the statement
is about the rows that are stored for them, private texts and key versions included.
-/

namespace SealedDirectory

/--
The trail grew by entries that tell of a change of one record: from the row with the
expected signature to the row that is stored now.
-/
structure Tables.Recorded
    (kind : RecordKind)
    (id : Uuid)
    (expected : Signature)
    (old new : Contents)
    (entries : List Entry)
    (before after : Tables) :
    Prop where
  wasStored : before.contents? kind id = some old
  isStored : after.contents? kind id = some new
  /-- The signature that was expected is the one that was stored. -/
  expected : old.value "signature" = .text expected.bare
  /-- There is one entry for every watched column that differs, and no other. -/
  told : TellAll kind id old new entries
  /-- The entries follow each other and all that was in the trail. -/
  numbered : ∃ first, Consecutive first entries ∧
    ∀ row ∈ before.trail, ∀ number, row.order = .holds number → number < first
  trail : after.trail = before.trail ++ entries.map EntryRow.ofEntry
  /-- What was added to the trail is read as these entries. -/
  read : (entries.map EntryRow.ofEntry).mapM EntryRow.toEntry = .ok entries

namespace Tables.Replaced

variable
  {sight : Sight}
  {signature : Signature}
  {entries : List Entry}
  {old new : sight.kind.Row}
  {before after : Tables}

theorem recorded
    (replaced : Replaced sight signature entries old new before after)
    (sound : before.Sound) :
    Recorded sight.kind sight.id sight.signature
      (sight.kind.contents old) (sight.kind.contents new) entries before after where
  wasStored := by
    rw [contents?, replaced.row?_before]
    rfl
  isStored := by
    rw [contents?, replaced.row?_after]
    rfl
  expected := by
    rw [RecordKind.value_signature, replaced.guarded]
    rfl
  told := replaced.told
  numbered := replaced.numbered
  trail := replaced.trail_eq
  read := EntryRow.mapM_toEntry fun entry member =>
    (replaced.plain_entries sound entry member).legible

end Tables.Replaced

/--
In every store that a run from an empty store reaches, a change of an organization or of
a user that succeeds adds to the trail exactly one entry for every watched column that
differs between the rows stored before and after it, and gives exactly these entries.
Watched are owner and status of an organization, and of a user the digests of key and
name, the key version, the password and the status.
The change may be any function of the record, and it may refuse.
-/
theorem changes_are_noted_exactly
    (source : Source)
    (events : List Event) :
    (∀ ring id expected (change : Org → Except Fault Org) mutation after,
      (Work.mutate ring id expected
          fun org : Org => ofExcept (change org)).Gives
        ((Session.founded source).after events) mutation after →
      ∃ old new,
        Tables.Recorded .org id.uuid expected old new mutation.entries
          ((Session.founded source).after events).tables after.tables) ∧
    ∀ ring id expected (change : User → Except Fault User) mutation after,
      (Work.mutate ring id expected
          fun user : User => ofExcept (change user)).Gives
        ((Session.founded source).after events) mutation after →
      ∃ old new,
        Tables.Recorded .user id.uuid expected old new mutation.entries
          ((Session.founded source).after events).tables after.tables := by
  have sound := Session.sound_after source events
  constructor
  · intro ring id expected change mutation after given
    obtain ⟨old, new, replaced, -⟩ :=
      Work.mutate_gives (Work.looksAtRecord_ofExcept change) sound given
    exact ⟨_, _, replaced.recorded sound⟩
  · intro ring id expected change mutation after given
    obtain ⟨old, new, replaced, -⟩ :=
      Work.mutate_gives (Work.looksAtRecord_ofExcept change) sound given
    exact ⟨_, _, replaced.recorded sound⟩

/-- The first organization and its owner are changed, and both changes are noted. -/
theorem first_changes_are_noted_exactly :
    ∃ events session, (Session.founded Sample.source).after events = session ∧
      (∃ id expected mutation after old new,
        (Work.mutate Sample.ring id expected fun org : Org =>
            ofExcept (.ok { org with stamp := { org.stamp with status := .active } })).Gives
          session mutation after ∧
        Tables.Recorded .org id.uuid expected old new mutation.entries
          session.tables after.tables) ∧
      ∃ id expected mutation after old new,
        (Work.mutate Sample.ring id expected fun user : User =>
            ofExcept (.ok { user with password := "g" })).Gives session mutation after ∧
        Tables.Recorded .user id.uuid expected old new mutation.entries
          session.tables after.tables := by
  rcases Sample.begins with ⟨created, session, creates, first⟩
  let events : List Event := [.performed Sample.ring (.createOrg Sample.newOrg)]
  have reached : (Session.founded Sample.source).after events = session := by
    rw [Session.after_cons, Session.after_nil, Event.step_performed creates]
  let activate (org : Org) : Except Fault Org :=
    .ok { org with stamp := { org.stamp with status := .active } }
  let renew (user : User) : Except Fault User := .ok { user with password := "g" }
  obtain ⟨orgMutation, afterOrg, mutatesOrg⟩ :=
    first.mutateOrg_succeeds Sample.drawsApart_source (fun org => ofExcept (activate org))
      (Work.pure_succeeds session _) rfl
  obtain ⟨userMutation, afterUser, mutatesUser⟩ :=
    first.mutateOwner_succeeds Sample.drawsApart_source (fun user => ofExcept (renew user))
      (Work.pure_succeeds session _) rfl
  rcases changes_are_noted_exactly Sample.source events with ⟨ofOrgs, ofUsers⟩
  rw [reached] at ofOrgs ofUsers
  rcases ofOrgs _ _ _ activate _ _ mutatesOrg with ⟨oldOrg, newOrg, recordedOrg⟩
  rcases ofUsers _ _ _ renew _ _ mutatesUser with ⟨oldUser, newUser, recordedUser⟩
  exact ⟨events, session, reached,
    ⟨_, _, orgMutation, afterOrg, oldOrg, newOrg, mutatesOrg, recordedOrg⟩,
    ⟨_, _, userMutation, afterUser, oldUser, newUser, mutatesUser, recordedUser⟩⟩

end SealedDirectory
