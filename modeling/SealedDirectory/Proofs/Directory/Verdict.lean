import SealedDirectory.Proofs.Directory.Amendment
import SealedDirectory.Proofs.Directory.Rekeying
import SealedDirectory.Proofs.Directory.Rewriting

/-!
# What comes of a change

Whether a change is accepted, and what it then writes, is settled beforehand by a few
things: the row of the record, the ring, the signature that is expected, the change
itself, and what is drawn next.  So the verdict on a change is a function of them, and
what an accepted change does to the tables is an amendment that is known with it.

The numbers of the entries are left aside, since they depend on the whole trail.  Changes
of columns that must be unique are left aside as well, since they depend on other rows.
-/

namespace SealedDirectory

open Tables

/-! ## Whether a change is admitted -/

namespace Work

section

variable
  {R : Type}
  {change : R → Work R}
  {edit : R → Except Fault R}

/-- A change makes of a record what a function makes of it, and does nothing else. -/
def Edits
    (change : R → Work R)
    (edit : R → Except Fault R) :
    Prop :=
  ∀ record session, (change record).runIn session = (edit record, session)

theorem edits_pure (f : R → R) :
    Edits (fun record => (pure (f record) : Work R)) fun record => .ok (f record) :=
  fun _ _ => rfl

theorem edits_require
    {ρ : Type}
    (check : R → Except ρ Unit)
    (fault : ρ → Fault)
    (f : R → R) :
    Edits
      (fun record => do
        require (check record) fault
        return f record)
      fun record => ((check record).mapError fault).map fun _ => f record := by
  intro record session
  cases checked : check record with
  | error rule => simp only [checked]; rfl
  | ok passes => simp only [checked]; rfl

theorem Edits.looks (edits : Edits change edit) :
    LooksAtRecord change := by
  intro record session changed later given
  have same := given.symm.trans (edits record session)
  exact congrArg Prod.snd same

end

variable
  {R : Type}
  [Versioned R]
  {change : R → Work R}
  {edit : R → Except Fault R}
  {ring : KeyRing}
  {id : Id (Versioned.idKind R)}
  {expected : Signature}
  {session : Session}

/-- The record that is loaded and what the change makes of it, if nothing speaks against it. -/
def admitted
    (edit : R → Except Fault R)
    (ring : KeyRing)
    (id : Id (Versioned.idKind R))
    (expected : Signature)
    (tables : Tables) :
    Except Fault (R × R) :=
  match Versioned.find tables ring id with
  | .error fault => .error fault
  | .ok none => .error (.notFound (Versioned.kind R) id.display)
  | .ok (some loaded) =>
      if (Versioned.stamp loaded).signature ≠ expected then
        .error (staleFault id expected (Versioned.stamp loaded).signature)
      else (edit loaded).map fun changed => (loaded, changed)

theorem runIn_load
    (ring : KeyRing)
    (id : Id (Versioned.idKind R))
    (session : Session) :
    (load ring id : Work R).runIn session =
      (match Versioned.find session.tables ring id with
        | .error fault => .error fault
        | .ok none => .error (.notFound (Versioned.kind R) id.display)
        | .ok (some loaded) => .ok loaded, session) := by
  rw [load, runIn_bind, runIn_ask]
  cases Versioned.find session.tables ring id with
  | error fault => rfl
  | ok found => cases found <;> rfl

/-- A change that is not admitted fails and touches nothing. -/
theorem mutate_refused
    {fault : Fault}
    (edits : Edits change edit)
    (refused : admitted edit ring id expected session.tables = .error fault) :
    (mutate ring id expected change).Fails session fault session := by
  rw [Fails, mutate, runIn_bind, runIn_load]
  rw [admitted] at refused
  split at refused
  · cases refused
    rfl
  · cases refused
    rfl
  · next loaded found =>
      dsimp only
      split at refused
      · next stale =>
          cases refused
          rw [if_pos stale]
          rfl
      · next current =>
          rw [if_neg current, runIn_bind]
          cases edited : edit loaded with
          | error reason =>
              rw [edited] at refused
              cases refused
              have ran := edits loaded session
              rw [edited] at ran
              rw [ran]
          | ok changed =>
              rw [edited] at refused
              cases refused

theorem admitted_eq_ok
    {loaded changed : R}
    {tables : Tables}
    (allowed : admitted edit ring id expected tables = .ok (loaded, changed)) :
    Versioned.find tables ring id = .ok (some loaded) ∧
      (Versioned.stamp loaded).signature = expected ∧ edit loaded = .ok changed := by
  rw [admitted] at allowed
  split at allowed
  · cases allowed
  · cases allowed
  · next found asked =>
      split at allowed
      · cases allowed
      · next current =>
          cases edited : edit found with
          | error reason =>
              rw [edited] at allowed
              cases allowed
          | ok made =>
              rw [edited] at allowed
              cases allowed
              exact ⟨asked, not_not.mp current, edited⟩

theorem admitted_of_found
    {loaded changed : R}
    {tables : Tables}
    (found : Versioned.find tables ring id = .ok (some loaded))
    (edited : edit loaded = .ok changed) :
    admitted edit ring id (Versioned.stamp loaded).signature tables = .ok (loaded, changed) := by
  simp only [admitted, found, ne_eq, not_true_eq_false, if_false, edited]
  rfl

end Work

/-! ## What is written -/

/-- A record is written over the row of a loaded one, and a known row takes its place. -/
structure Work.Writes
    {R : Type}
    [Versioned R]
    (ring : KeyRing)
    (loaded record : R)
    (row : (Versioned.kind R).Row)
    (session written : Session) :
    Prop where
  given : (Versioned.overwrite ring record (Versioned.stamp loaded).signature).Gives session
    true written
  place : ∃ earlier old later,
    session.tables.rows (Versioned.kind R) = earlier ++ old :: later ∧
      (Versioned.kind R).idCell old = .holds ⟨(Versioned.id loaded).uuid⟩ ∧
      written.tables =
        (Versioned.kind R).view.restore session.tables (earlier ++ row :: later)
  /-- Every user stays in its organization. -/
  members : ∀ user, written.tables.orgOfUser? user = session.tables.orgOfUser? user
  drew : session.Drew 0 written
  clock : written.drawn.clock = session.drawn.clock

/-- Kinds of records that are found by their row, and written in a way that is known. -/
class Settled
    (R : Type)
    [Versioned R] where
  /-- The row that a changed record is written as, with what is drawn in a session. -/
  row (ring : KeyRing) (session : Session) (loaded changed : R) : (Versioned.kind R).Row
  /-- The columns that must be unique are left alone. -/
  Spares (loaded changed : R) : Prop
  id_row (ring : KeyRing) (session : Session) (loaded changed : R) :
    (Versioned.kind R).idCell (row ring session loaded changed) =
      .holds ⟨(Versioned.id loaded).uuid⟩
  row_congr {left right : Session}
    (source : left.source = right.source)
    (drawn : left.drawn = right.drawn)
    (ring : KeyRing) (loaded changed : R) :
    row ring left loaded changed = row ring right loaded changed
  find_congr {left right : Tables} {id : Id (Versioned.idKind R)}
    (same : left.row? (Versioned.kind R) id.uuid = right.row? (Versioned.kind R) id.uuid)
    (ring : KeyRing) :
    (Versioned.find left ring id : Except Fault (Option R)) = Versioned.find right ring id
  writes {ring : KeyRing} {id : Id (Versioned.idKind R)} {loaded changed : R}
    {session : Session}
    (sound : session.tables.Sound)
    (unambiguous : session.tables.Unambiguous)
    (found : Versioned.find session.tables ring id = .ok (some loaded))
    (spares : Spares loaded changed)
    (fresh : ¬ session.tables.Registered ⟨session.uuidAhead 0⟩) :
    ∃ written, Work.Writes ring loaded (Work.renewal ring session loaded changed)
      (row ring session loaded changed) (Work.afterUuid (Work.afterClock session)) written

/-- What a change leads to depends on a session only by what is drawn in it. -/
theorem Work.renewal_congr
    {R : Type}
    [Versioned R]
    {left right : Session}
    (source : left.source = right.source)
    (drawn : left.drawn = right.drawn)
    (ring : KeyRing)
    (loaded changed : R) :
    renewal ring left loaded changed = renewal ring right loaded changed := by
  rw [renewal, renewal, Session.uuidAhead, Session.uuidAhead, source, drawn]

/-! ### Organizations -/

/-- The columns of an organization that must be unique are left alone. -/
structure Org.Spares (loaded changed : Org) : Prop where
  id : changed.id = loaded.id
  name : changed.name = loaded.name

/-- A stored organization stays apart from all others under a new signature. -/
theorem Tables.Unambiguous.apart_renewedOrg
    {tables : Tables}
    {earlier later : List OrgRow}
    {old new : OrgRow}
    {signature : Signature}
    (unambiguous : tables.Unambiguous)
    (sound : tables.Sound)
    (placed : tables.orgs = earlier ++ old :: later)
    (sameId : new.id = old.id)
    (sameOrder : new.order = old.order)
    (sameName : new.name = old.name)
    (renewed : new.signature = .holds signature)
    (fresh : ¬ tables.Registered signature) :
    Apart OrgRow.uniques new (earlier ++ later) := by
  apply unambiguous.apart_alike .org placed
  intro (unique : Unique OrgRow) (rule : unique ∈ OrgRow.uniques) other member apart
  simp only [OrgRow.uniques, List.mem_cons, List.not_mem_nil, or_false] at rule
  rcases rule with rfl | rfl | rfl | rfl
  · have apartNow := sound.clashes_fresh .org member fresh
    rwa [← renewed] at apartNow
  · simpa only [sameOrder] using apart
  · simpa only [sameName] using apart
  · simpa only [sameId] using apart

instance : Settled Org where
  row := fun ring session loaded changed =>
    OrgRow.ofOrg (loaded.overwritten (Work.renewal ring session loaded changed))
  Spares := Org.Spares
  id_row := fun _ _ _ _ => rfl
  row_congr := by
    intro left right source drawn ring loaded changed
    rw [Work.renewal_congr source drawn]
  find_congr := by
    intro left right id same ring
    exact congrArg (fun found : Option OrgRow => found.mapM OrgRow.toOrg) same
  writes := by
    intro ring id loaded changed session sound unambiguous found spares fresh
    let started := Work.afterUuid (Work.afterClock session)
    let record := Work.renewal ring session loaded changed
    have stored := org?_eq_some (sound.written .org) found
    have sameId : record.id = loaded.id := spares.id
    have member := (sound.row?_eq_some_iff.mp stored).1
    rcases List.append_of_mem member with ⟨earlier, later, placed⟩
    have others := sound.others_ne .org placed rfl
    have apart : Apart OrgRow.uniques ((OrgRow.ofOrg loaded).overwritten record)
        (earlier ++ later) :=
      unambiguous.apart_renewedOrg sound placed rfl rfl spares.name rfl fresh
    have given := Org.overwrite_succeeds started ring record earlier later placed
      (congrArg Cell.holds sameId.symm) rfl (by rwa [sameId]) apart
    rw [OrgRow.overwritten_ofOrg] at given
    exact ⟨_, given, ⟨earlier, _, later, placed, rfl, rfl⟩, fun _ => rfl, ⟨rfl, rfl⟩, rfl⟩

/-! ### Users -/

/-- The columns of a user that must be unique are left alone. -/
structure User.Spares (loaded changed : User) : Prop where
  id : changed.id = loaded.id
  publicKey : changed.publicKey = loaded.publicKey
  email : changed.email = loaded.email

/-- Every user is found in its organization if one row keeps its own. -/
theorem Tables.orgOfUser?_eq_of_placed
    {before after : Tables}
    {earlier later : List UserRow}
    {old new : UserRow}
    (placed : before.users = earlier ++ old :: later)
    (users : after.users = earlier ++ new :: later)
    (sameId : new.id = old.id)
    (sameOrg : new.org = old.org)
    (user : UserId) :
    after.orgOfUser? user = before.orgOfUser? user := by
  have orgs (tables : Tables) : tables.orgOfUser? user =
      ((tables.users.find? fun row => row.id = .holds user).map UserRow.org).mapM
        fun org => org.read 0 "org" := by
    rw [orgOfUser?]
    cases tables.users.find? fun row => row.id = .holds user <;> rfl
  rw [orgs, orgs, placed, users, List.find?_append, List.find?_append, List.find?_cons,
    List.find?_cons, sameId]
  split
  · cases earlier.find? fun row => row.id = .holds user <;> simp [sameOrg]
  · rfl

instance : Settled User where
  row := fun ring session loaded changed =>
    let record := Work.renewal ring session loaded changed
    let texts := record.sealedTexts ring (Work.afterUuid (Work.afterClock session))
    UserRow.ofUser (loaded.overwritten record) texts
  Spares := User.Spares
  id_row := fun _ _ _ _ => rfl
  row_congr := by
    intro left right source drawn ring loaded changed
    dsimp only
    rw [Work.renewal_congr source drawn, User.sealedTexts, User.sealedTexts, Work.afterUuid,
      Work.afterUuid, Work.afterClock, Work.afterClock, source, drawn]
  find_congr := by
    intro left right id same ring
    exact congrArg (fun found : Option UserRow =>
      found.mapM UserRow.toStored >>= Option.mapM fun stored => stored.opened ring) same
  writes := by
    intro ring id loaded changed session sound unambiguous found spares fresh
    let started := Work.afterUuid (Work.afterClock session)
    let record := Work.renewal ring session loaded changed
    rcases user?_eq_some (sound.written .user) found with ⟨_, stored, texts, rfl, digested⟩
    have sameId : record.id = loaded.id := spares.id
    have member := (sound.row?_eq_some_iff.mp stored).1
    rcases List.append_of_mem member with ⟨earlier, later, placed⟩
    have others := sound.others_ne .user placed rfl
    have given := User.overwrite_succeeds started record earlier later placed
      (congrArg Cell.holds sameId.symm) rfl (by rwa [sameId]) rfl (by
        intro renewed digestedNow
        have publicKey : record.publicKeyDigest = loaded.publicKeyDigest :=
          congrArg fingerprint spares.publicKey
        have email : record.emailDigest = loaded.emailDigest :=
          congrArg fingerprint spares.email
        exact unambiguous.apart_renewed sound placed rfl rfl rfl
          (digestedNow.publicKey.trans (publicKey.trans digested.publicKey.symm))
          (digestedNow.email.trans (email.trans digested.email.symm)) rfl fresh)
    rw [UserRow.overwritten_ofUser] at given
    refine ⟨_, given, ⟨earlier, _, later, placed, rfl, rfl⟩, ?_, ⟨rfl, rfl⟩, rfl⟩
    exact orgOfUser?_eq_of_placed placed rfl rfl rfl

/-! ## Verdicts -/

/-- The change without the numbers of its entries. -/
def Mutation.unordered
    {R : Type}
    (mutation : Mutation R) :
    Mutation R :=
  { mutation with entries := mutation.entries.map Entry.unordered }

/-- An operation fails and lets the tables rest, or it gives a value and amends the tables. -/
inductive Work.ComesTo
    {α : Type}
    (work : Work α)
    (loosen : α → α)
    (session : Session) :
    Except Fault (α × Amendment) → Prop
  | fails {fault : Fault} {after : Session}
      (fails : work.Fails session fault after)
      (idle : Rests session.tables after.tables) :
      ComesTo work loosen session (.error fault)
  | gives {value : α} {amendment : Amendment} {after : Session}
      (given : work.Gives session value after)
      (amended : Amended (some amendment) session.tables after.tables) :
      ComesTo work loosen session (.ok (loosen value, amendment))

namespace Work

section

variable
  {R : Type}
  [Versioned R]
  [Settled R]

/-- What a change does to the tables if it is accepted. -/
def amendment
    (ring : KeyRing)
    (session : Session)
    (loaded changed : R) :
    Amendment :=
  let record := renewal ring session loaded changed
  let stamp := Versioned.stamp record
  let noted := (session.source.clock (session.drawn.clock + 1)).seconds
  { kind := Versioned.kind R
    id := (Versioned.id loaded).uuid
    row := Settled.row ring session loaded changed
    ofId := Settled.id_row ring session loaded changed
    issued := ⟨.holds stamp.signature, .holds (Versioned.kind R), .holds stamp.changed⟩
    entries := (changes Versioned.watched loaded record).map (.ofChange loaded record noted) }

/-- The fault of a change, or else what it gives and what it does to the tables. -/
def verdict
    (edit : R → Except Fault R)
    (ring : KeyRing)
    (id : Id (Versioned.idKind R))
    (expected : Signature)
    (session : Session) :
    Except Fault (Mutation R × Amendment) :=
  (admitted edit ring id expected session.tables).map fun (loaded, changed) =>
    let made := amendment ring session loaded changed
    (⟨renewal ring session loaded changed, made.entries⟩, made)

/-- The verdict depends on the row of the record and on what is drawn. -/
theorem verdict_congr
    {left right : Session}
    (edit : R → Except Fault R)
    (ring : KeyRing)
    {id : Id (Versioned.idKind R)}
    (expected : Signature)
    (source : left.source = right.source)
    (drawn : left.drawn = right.drawn)
    (same : left.tables.row? (Versioned.kind R) id.uuid =
      right.tables.row? (Versioned.kind R) id.uuid) :
    verdict edit ring id expected left = verdict edit ring id expected right := by
  have admits : admitted edit ring id expected left.tables =
      admitted edit ring id expected right.tables := by
    rw [admitted, admitted, Settled.find_congr same]
  have amends (loaded changed : R) :
      amendment ring left loaded changed = amendment ring right loaded changed := by
    simp only [amendment, renewal_congr source drawn, Settled.row_congr source drawn, source, drawn]
  simp only [verdict, admits, amends, renewal_congr source drawn]

variable
  [Kept R]
  {change : R → Work R}
  {edit : R → Except Fault R}
  {ring : KeyRing}
  {id : Id (Versioned.idKind R)}
  {expected : Signature}
  {session : Session}

/-- The steps of a change amend the tables as is known beforehand. -/
theorem Steps.amended
    {mutation : Mutation R}
    {loaded changed : R}
    {written registered after : Session}
    (steps : Steps ring id expected change mutation loaded changed written registered session
      after)
    (writes : Writes ring loaded (renewal ring session loaded changed)
      (Settled.row ring session loaded changed) (afterUuid (afterClock session)) written)
    (sound : session.tables.Sound) :
    mutation.unordered = ⟨renewal ring session loaded changed,
        (amendment ring session loaded changed).entries⟩ ∧
      Amended (some (amendment ring session loaded changed)) session.tables after.tables := by
  have record := steps.record
  rcases register_eq_ok.mp steps.registers with ⟨-, tables⟩
  have numbered : registered.tables.Numbered := by
    rcases Kept.overwritten writes.given with ⟨old, new, overwritten⟩
    have numberedThen : written.tables.Numbered := overwritten.numbered sound
    rw [tables]
    exact numberedThen
  rcases note_unordered steps.notes numbered with ⟨entries, noted⟩
  have clock : (registered.source.clock registered.drawn.clock).seconds =
      (session.source.clock (session.drawn.clock + 1)).seconds := by
    rw [steps.sameDraws]
    dsimp only
    rw [writes.drew.source, writes.clock]
    rfl
  rw [clock, record] at entries
  have numbers : (mutation.entries.map EntryRow.ofEntry).map EntryRow.unordered =
      (amendment ring session loaded changed).entries.map EntryRow.ofEntry := by
    rw [amendment, ← entries, List.map_map, List.map_map]
    exact List.map_congr_left fun entry _ => EntryRow.unordered_ofEntry entry
  rcases writes.place with ⟨earlier, old, later, placed, holds, restored⟩
  have others := sound.others_ne _ placed holds
  have members := writes.members
  rw [restored] at members
  rw [tables, restored, record] at noted
  refine ⟨?_, ?_, ?_, ?_, ?_⟩
  · rw [Mutation.unordered, record, entries]
    rfl
  · intro kind
    rw [noted, rows_noting, rows_registering]
    exact (amendment ring session loaded changed).rows_restore placed holds others kind
  · rw [noted]
    exact congrArg (· ++ _) (registry_restore _ _ _)
  · rw [noted, noting, List.map_append, numbers, Option.toList_some, List.flatMap_singleton]
    exact congrArg (List.map EntryRow.unordered · ++ _) (trail_restore _ _ _)
  · intro user
    rw [noted]
    exact members user

/-- A change that is admitted is accepted. -/
theorem mutate_accepted
    {loaded changed : R}
    (edits : Edits change edit)
    (regular : session.tables.Regular)
    (fresh : ¬ session.tables.Registered ⟨session.uuidAhead 0⟩)
    (allowed : admitted edit ring id expected session.tables = .ok (loaded, changed))
    (spares : Settled.Spares loaded changed) :
    ∃ mutation after, (mutate ring id expected change).Gives session mutation after ∧
      mutation.unordered = ⟨renewal ring session loaded changed,
        (amendment ring session loaded changed).entries⟩ ∧
      Amended (some (amendment ring session loaded changed)) session.tables after.tables := by
  rcases admitted_eq_ok allowed with ⟨found, rfl, edited⟩
  have sound := regular.sound
  have changes : (change loaded).Gives session changed session := by
    rw [Gives, edits, edited]
  rcases Settled.writes sound regular.unambiguous found spares fresh with ⟨written, writes⟩
  have unnoted (columns : List String) : session.tables.Unnoted
      (Versioned.stamp loaded).signature ⟨session.uuidAhead 0⟩ columns := by
    rcases regular.traced with ⟨entries, traced⟩
    rcases Kept.found (sound.written _) found with ⟨row, stored, shows⟩
    exact traced.unnoted (sound.row?_eq_some_iff.mp stored).1 shows.signature fresh columns
  obtain ⟨mutation, after, given, record, -⟩ := mutate_succeeds sound found changes writes.given
    ⟨writes.drew.source, writes.drew.uuid⟩ fresh unnoted
  -- The steps of the change are the known ones, since nothing else can come of them.
  obtain ⟨_, _, _, registered, steps⟩ := mutate_steps edits.looks given
  cases steps.found.symm.trans found
  cases (steps.changes.unique changes).1
  have overwrites := steps.overwrites
  rw [record] at overwrites
  cases (overwrites.unique writes.given).2
  exact ⟨mutation, after, given, steps.amended writes sound⟩

/-- A change comes to the verdict on it. -/
theorem mutate_comes
    (edits : Edits change edit)
    (spares : ∀ loaded changed, edit loaded = .ok changed → Settled.Spares loaded changed)
    (regular : session.tables.Regular)
    (fresh : ¬ session.tables.Registered ⟨session.uuidAhead 0⟩) :
    (mutate ring id expected change).ComesTo Mutation.unordered session
      (verdict edit ring id expected session) := by
  cases allowed : admitted edit ring id expected session.tables with
  | error fault =>
      rw [verdict, allowed]
      exact .fails (mutate_refused edits allowed) (.refl _)
  | ok pair =>
      rcases pair with ⟨loaded, changed⟩
      have edited := (admitted_eq_ok allowed).2.2
      obtain ⟨mutation, after, given, same, amended⟩ :=
        mutate_accepted edits regular fresh allowed (spares loaded changed edited)
      rw [verdict, allowed]
      dsimp only [Except.map]
      rw [← same]
      exact .gives given amended

/-- A change that is accepted amends its record, and issues the identifier that is next. -/
theorem verdict_eq_ok
    {result : Mutation R}
    {made : Amendment}
    (sound : session.tables.Sound)
    (accepted : verdict edit ring id expected session = .ok (result, made)) :
    made.target = (Versioned.kind R, id.uuid) ∧
      made.issued.signature = .holds ⟨session.uuidAhead 0⟩ := by
  cases allowed : admitted edit ring id expected session.tables with
  | error fault =>
      rw [verdict, allowed] at accepted
      cases accepted
  | ok pair =>
      rcases pair with ⟨loaded, changed⟩
      rw [verdict, allowed] at accepted
      cases accepted
      rcases Kept.found (sound.written _) (admitted_eq_ok allowed).1 with ⟨row, stored, shows⟩
      have ids := Cell.holds.inj (shows.id.symm.trans (sound.row?_eq_some_iff.mp stored).2)
      refine ⟨Prod.ext rfl (congrArg Id.uuid ids), congrArg Cell.holds ?_⟩
      rw [renewal, Kept.stamp_withStamp]
      rfl

end

end Work

end SealedDirectory
