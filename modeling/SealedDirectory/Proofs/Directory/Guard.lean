import SealedDirectory.Proofs.Directory.Collision
import SealedDirectory.Proofs.Directory.Tended
import SealedDirectory.Proofs.Work.Failing

/-!
# The guard of a change

A change looks at the signature of its record twice: once when the record was loaded, and
once more in the statement that writes it.  If nothing but the four statements has written
the records, then the second look never disagrees with the first one.  What is loaded is the
one row of its identifier, with the signature in the form in which the statement compares it,
and neither the change nor the new stamp moves the record away from that row.

So a record that is to be written is written, unless a rule of the table is broken.  A change
is refused as stale only because of what was loaded, and for a missing record only if there
is none.  A change can also refuse by itself with a fault of this kind, which is left to it.
-/

namespace SealedDirectory

open Tables

/-! ## Faults that are not about a record -/

/-- A fault says neither that a record is stale nor that there is none. -/
structure Fault.Elsewhere (fault : Fault) : Prop where
  fresh : fault.isStale = false
  found : fault.isNotFound = false

theorem Cell.elsewhere_of_read
    {α : Type}
    [Storable α]
    {cell : Cell α}
    {index : Nat}
    {column : String}
    {fault : Fault}
    (failed : cell.read index column = .error fault) :
    fault.Elsewhere := by
  cases cell with
  | holds value => cases failed
  | foreign content =>
      rw [Cell.read] at failed
      split at failed <;> cases failed <;> exact ⟨rfl, rfl⟩

theorem elsewhere_of_insertRow
    {ρ : Type}
    {uniques : List (Unique ρ)}
    {row : ρ}
    {rows : List ρ}
    {fault : Fault}
    (failed : insertRow uniques row rows = .error fault) :
    fault.Elsewhere := by
  rw [insertRow] at failed
  split at failed
  · cases failed
    exact ⟨rfl, rfl⟩
  · cases failed

/-- A private text that does not open is a fault of the key, the text or its digest. -/
theorem SealedField.elsewhere_of_opened
    {field : SealedField}
    {ring : KeyRing}
    {fault : Fault}
    (failed : field.opened ring = .error fault) :
    fault.Elsewhere := by
  have frames {key : Key} {framed : Bytes} {fault : Fault}
      (failed : Envelope.openedFrame key framed = .error fault) : fault.Elsewhere := by
    rw [Envelope.openedFrame] at failed
    split at failed
    · cases failed
      exact ⟨rfl, rfl⟩
    · split at failed
      · cases failed
        exact ⟨rfl, rfl⟩
      · split at failed
        · cases failed
        · cases failed
          exact ⟨rfl, rfl⟩
  rcases bind_eq_error.mp failed with unknown | ⟨key, -, closed⟩
  · rw [KeyRing.get] at unknown
    split at unknown
    · cases unknown
    · cases unknown
      exact ⟨rfl, rfl⟩
  · rw [Envelope.opened] at closed
    split at closed
    · cases closed
      exact ⟨rfl, rfl⟩
    · split at closed
      · next refused =>
          cases closed
          exact frames refused
      · split at closed
        · cases closed
        · cases closed
          exact ⟨rfl, rfl⟩

theorem StoredUser.elsewhere_of_opened
    {stored : StoredUser}
    {ring : KeyRing}
    {fault : Fault}
    (failed : stored.opened ring = .error fault) :
    fault.Elsewhere := by
  rcases bind_eq_error.mp failed with displayName | ⟨_, -, rest⟩
  · exact SealedField.elsewhere_of_opened displayName
  · rcases bind_eq_error.mp rest with publicKey | ⟨_, -, rest⟩
    · exact SealedField.elsewhere_of_opened publicKey
    · rcases bind_eq_error.mp rest with email | ⟨_, -, rest⟩
      · exact SealedField.elsewhere_of_opened email
      · cases rest

/-- A signature is registered, or it was issued before. -/
theorem Work.register_failsElsewhere
    (signature : Signature)
    (kind : RecordKind)
    (time : Int) :
    (execute fun tables => tables.register signature kind time).FailsOnly Fault.Elsewhere := by
  apply failsOnly_execute
  intro tables fault failed
  rcases bind_eq_error.mp failed with refused | ⟨_, -, rest⟩
  · exact elsewhere_of_insertRow refused
  · cases rest

/-- Noting a change fails neither because a record is stale nor because there is none. -/
theorem Work.note_failsElsewhere
    {R : Type}
    [Versioned R]
    (before after : R) :
    (note before after).FailsOnly Fault.Elsewhere := by
  have numbers : (nextNumber .trail).FailsOnly Fault.Elsewhere :=
    failsOnly_nextNumber fun tables fault failed => Cell.elsewhere_of_read failed
  have notes (time : Int) (change : String × Details) :
      (noteChange before after time change).FailsOnly Fault.Elsewhere := by
    refine numbers.bind fun order => FailsOnly.bind ?_ fun _ => ?_
    · apply failsOnly_execute
      intro tables fault failed
      rcases bind_eq_error.mp failed with refused | ⟨_, -, rest⟩
      · exact elsewhere_of_insertRow refused
      · cases rest
    · exact failsOnly_of_gives fun _ => ⟨_, _, rfl⟩
  refine FailsOnly.bind ?_ fun time => .mapM (notes time) _
  exact failsOnly_of_gives fun _ => ⟨_, _, rfl⟩

/-! ## The statement that is guarded -/

/-- A statement that selects one row changes it, unless the row then breaks a rule. -/
theorem updateRows_placed
    {ρ : Type}
    (uniques : List (Unique ρ))
    (select : ρ → Bool)
    (change : ρ → ρ)
    (earlier : List ρ)
    (old : ρ)
    (later : List ρ)
    (selected : select old = true)
    (unselected : ∀ row ∈ earlier ++ later, select row = false) :
    let updated := updateRows uniques select (fun row => .ok (change row)) []
      (earlier ++ old :: later)
    (∃ rows, updated = .ok (rows, 1)) ∨ ∃ columns, updated = .error (.taken columns) := by
  cases broken : brokenUnique? uniques (change old) (earlier ++ later) with
  | none =>
      have apart := brokenUnique?_eq_none.mp broken
      exact .inl ⟨_, updateRows_selected select _ selected unselected rfl apart⟩
  | some columns =>
      exact .inr ⟨columns, updateRows_broken select _ selected unselected rfl broken⟩

section

variable
  {tables : Tables}
  {expected : Signature}

/-- An organization is written over its row, unless the row then breaks a rule. -/
theorem Tables.updateOrg_placed
    {org : Org}
    {earlier later : List OrgRow}
    {old : OrgRow}
    (placed : tables.orgs = earlier ++ old :: later)
    (id : old.id = .holds org.id)
    (guarded : old.signature = .holds expected)
    (others : ∀ row ∈ earlier ++ later, row.id ≠ .holds org.id) :
    (∃ after, tables.updateOrg org expected = .ok (after, true)) ∨
      ∃ columns, tables.updateOrg org expected = .error (.taken columns) := by
  have updated := updateRows_placed OrgRow.uniques
    (fun row : OrgRow => row.id = .holds org.id ∧ row.signature = .holds expected)
    (fun row => row.overwritten org) earlier old later
    (by simp [id, guarded]) (fun row member => by simp [others row member])
  rw [updateOrg, placed]
  rcases updated with ⟨rows, changed⟩ | ⟨columns, broken⟩
  · exact .inl ⟨_, bind_eq_ok.mpr ⟨_, changed, rfl⟩⟩
  · exact .inr ⟨columns, bind_eq_error.mpr (.inl broken)⟩

/-- A user is written over its row, unless the row then breaks a rule. -/
theorem Tables.updateUser_placed
    {user : User}
    (texts : SealedTexts)
    {earlier later : List UserRow}
    {old : UserRow}
    (placed : tables.users = earlier ++ old :: later)
    (id : old.id = .holds user.id)
    (guarded : old.signature = .holds expected)
    (others : ∀ row ∈ earlier ++ later, row.id ≠ .holds user.id) :
    (∃ after, tables.updateUser user texts expected = .ok (after, true)) ∨
      ∃ columns, tables.updateUser user texts expected = .error (.taken columns) := by
  have updated := updateRows_placed UserRow.uniques
    (fun row : UserRow => row.id = .holds user.id ∧ row.signature = .holds expected)
    (fun row => row.overwritten user texts) earlier old later
    (by simp [id, guarded]) (fun row member => by simp [others row member])
  rw [updateUser, placed]
  rcases updated with ⟨rows, changed⟩ | ⟨columns, broken⟩
  · exact .inl ⟨_, bind_eq_ok.mpr ⟨_, changed, rfl⟩⟩
  · exact .inr ⟨columns, bind_eq_error.mpr (.inl broken)⟩

end

/-- How the statement ends that writes a record: over one row, or not because of a rule. -/
inductive Work.Lands
    {R : Type}
    [Versioned R]
    (ring : KeyRing)
    (record : R)
    (expected : Signature)
    (session : Session) :
    Prop
  | written {old new : (Versioned.kind R).Row} {after : Session}
      (given : (Versioned.overwrite ring record expected).Gives session true after)
      (overwritten : OverwrittenBy record expected old new session.tables after.tables)
  | refused {columns : List String} {after : Session}
      (fails : (Versioned.overwrite ring record expected).Fails session (.taken columns) after)

/-- A row under a signature stands among others, and it alone has the identifier of a record. -/
def Tables.Stands
    {R : Type}
    [Versioned R]
    (record : R)
    (expected : Signature)
    (tables : Tables) :
    Prop :=
  ∃ earlier old later,
    tables.rows (Versioned.kind R) = earlier ++ old :: later ∧
      (Versioned.kind R).idCell old = .holds ⟨(Versioned.id record).uuid⟩ ∧
      (Versioned.kind R).signatureCell old = .holds expected ∧
      ∀ row ∈ earlier ++ later,
        (Versioned.kind R).idCell row ≠ .holds ⟨(Versioned.id record).uuid⟩

/-- Kinds of records whose guarded statement agrees with the way in which they are loaded. -/
class Guarded (R : Type) [Versioned R] : Prop extends Kept R where
  /-- Neither the preparation nor a new stamp changes the identifier. -/
  id_renewed (ring : KeyRing) (record : R) (stamp : Stamp) :
    Versioned.id (Versioned.withStamp (Versioned.prepared ring record) stamp) =
      Versioned.id record
  /-- A record that was prepared is still ready when it gets a new stamp. -/
  ready (ring : KeyRing) (record : R) (stamp : Stamp) :
    Versioned.prepared ring (Versioned.withStamp (Versioned.prepared ring record) stamp) =
      Versioned.withStamp (Versioned.prepared ring record) stamp
  unread {tables : Tables} {ring : KeyRing} {id : Id (Versioned.idKind R)} {fault : Fault}
    (intact : tables.Intact)
    (failed : (Versioned.find tables ring id : Except Fault (Option R)) = .error fault) :
    fault.Elsewhere
  absent {tables : Tables} {ring : KeyRing} {id : Id (Versioned.idKind R)}
    (missing : (Versioned.find tables ring id : Except Fault (Option R)) = .ok none) :
    tables.row? (Versioned.kind R) id.uuid = none
  lands {ring : KeyRing} {record : R} {expected : Signature} {session : Session}
    (ready : Versioned.prepared ring record = record)
    (stands : session.tables.Stands record expected) :
    (∃ after, (Versioned.overwrite ring record expected).Gives session true after) ∨
      ∃ columns after,
        (Versioned.overwrite ring record expected).Fails session (.taken columns) after

instance : Guarded Org where
  id_renewed := fun _ _ _ => rfl
  ready := fun _ _ _ => rfl
  unread := by
    intro tables ring id fault intact failed
    rcases mapM_eq_error.mp failed with ⟨row, found, unread⟩
    rcases intact.written .org row (List.mem_of_find?_eq_some found) with ⟨org, rfl⟩
    cases unread
  absent := mapM_eq_ok_none.mp
  lands := by
    intro ring org expected session ready stands
    obtain ⟨earlier, old, later, placed, id, guarded, others⟩ := stands
    rcases Tables.updateOrg_placed placed id guarded others with
      ⟨after, written⟩ | ⟨columns, broken⟩
    · exact .inl ⟨_, Work.gives_answer.mpr ⟨after, written, rfl⟩⟩
    · exact .inr ⟨columns, _, Work.answer_fails broken⟩

instance : Guarded User where
  id_renewed := fun _ _ _ => rfl
  ready := fun _ _ _ => rfl
  unread := by
    intro tables ring id fault intact failed
    rcases bind_eq_error.mp failed with unread | ⟨found, asked, closed⟩
    · rcases mapM_eq_error.mp unread with ⟨row, found, unread⟩
      rcases intact.written .user row (List.mem_of_find?_eq_some found) with ⟨user, texts, rfl⟩
      cases unread
    · rcases mapM_eq_error.mp closed with ⟨stored, -, closed⟩
      exact StoredUser.elsewhere_of_opened closed
  absent := by
    intro tables ring id missing
    rcases bind_eq_ok.mp missing with ⟨found, asked, none⟩
    rw [mapM_eq_ok_none.mp none] at asked
    exact mapM_eq_ok_none.mp asked
  lands := by
    intro ring user expected session ready stands
    obtain ⟨earlier, old, later, placed, id, guarded, others⟩ := stands
    have current : user.keyVersion = ring.current := (congrArg User.keyVersion ready).symm
    have encloses := user.sealTexts_draws session current
    have sameTables : (Work.afterSealing session).tables = session.tables := rfl
    rw [← sameTables] at placed
    rcases Tables.updateUser_placed (user.sealedTexts ring session) placed id guarded others with
      ⟨after, written⟩ | ⟨columns, broken⟩
    · exact .inl ⟨_, encloses.bind (Work.gives_answer.mpr ⟨after, written, rfl⟩)⟩
    · exact .inr ⟨columns, _, encloses.bind_fails (Work.answer_fails broken)⟩

/-! ## Changes -/

namespace Work

/-- What a change makes of a record has the identifier of the record. -/
def KeepsId
    {R : Type}
    [Versioned R]
    (edit : R → Except Fault R) :
    Prop :=
  ∀ loaded changed, edit loaded = .ok changed → Versioned.id changed = Versioned.id loaded

variable
  {R : Type}
  [Versioned R]

/-- The change of a record that was loaded refuses by itself. -/
def RefusesItself
    (edit : R → Except Fault R)
    (ring : KeyRing)
    (id : Id (Versioned.idKind R))
    (tables : Tables)
    (fault : Fault) :
    Prop :=
  ∃ loaded, Versioned.find tables ring id = .ok (some loaded) ∧ edit loaded = .error fault

/--
A change is refused as stale, or because there is no record, at the first look at the record
and at no later point.
-/
structure RefusesEarly
    (change : R → Work R)
    (edit : R → Except Fault R)
    (ring : KeyRing)
    (id : Id (Versioned.idKind R))
    (expected : Signature)
    (session : Session) :
    Prop where
  /-- What is to be written is under the current key. -/
  ready : ∀ loaded changed,
    admitted edit ring id expected session.tables = .ok (loaded, changed) →
      Versioned.prepared ring (renewal ring session loaded changed) =
        renewal ring session loaded changed
  /-- It is written over exactly one row, unless a rule of the table is broken. -/
  lands : ∀ loaded changed,
    admitted edit ring id expected session.tables = .ok (loaded, changed) →
      Lands ring (renewal ring session loaded changed) expected
        (afterUuid (afterClock session))
  /-- A change that is stale was stale when its record was loaded. -/
  stale : ∀ fault after, (mutate ring id expected change).Fails session fault after →
    fault.isStale = true → RefusesItself edit ring id session.tables fault ∨
      ∃ row actual,
        session.tables.row? (Versioned.kind R) id.uuid = some row ∧
        (Versioned.kind R).signatureCell row = .holds actual ∧
        actual ≠ expected ∧
        fault = staleFault (R := R) id expected actual
  /-- A record that is missing was missing when it was to be loaded. -/
  missing : ∀ fault after, (mutate ring id expected change).Fails session fault after →
    fault.isNotFound = true → RefusesItself edit ring id session.tables fault ∨
      session.tables.row? (Versioned.kind R) id.uuid = none

variable
  [Guarded R]
  {change : R → Work R}
  {edit : R → Except Fault R}
  {ring : KeyRing}
  {id : Id (Versioned.idKind R)}
  {expected : Signature}
  {loaded changed : R}
  {session after : Session}
  {fault : Fault}

/-- The record that a change leads to stands where the loaded one stands. -/
theorem stands_of_admitted
    (intact : session.tables.Intact)
    (keeps : KeepsId edit)
    (allowed : admitted edit ring id expected session.tables = .ok (loaded, changed)) :
    session.tables.Stands (renewal ring session loaded changed) expected := by
  rcases admitted_eq_ok allowed with ⟨found, rfl, edited⟩
  rcases Kept.found (intact.written _) found with ⟨row, stored, shows⟩
  rcases List.append_of_mem (List.mem_of_find?_eq_some stored) with ⟨earlier, later, placed⟩
  have sameId : Versioned.id (renewal ring session loaded changed) = Versioned.id loaded :=
    (Guarded.id_renewed ring changed _).trans (keeps loaded changed edited)
  refine ⟨earlier, row, later, placed, ?_, shows.signature, ?_⟩
  · rw [sameId]
    exact shows.id
  · rw [sameId]
    exact others_ne_of_distinct (intact.distinct _) placed shows.id

theorem lands_of_admitted
    (intact : session.tables.Intact)
    (keeps : KeepsId edit)
    (allowed : admitted edit ring id expected session.tables = .ok (loaded, changed)) :
    Lands ring (renewal ring session loaded changed) expected
      (afterUuid (afterClock session)) := by
  have stands : (afterUuid (afterClock session)).tables.Stands
      (renewal ring session loaded changed) expected :=
    stands_of_admitted intact keeps allowed
  have ready : Versioned.prepared ring (renewal ring session loaded changed) =
      renewal ring session loaded changed :=
    Guarded.ready ring changed _
  rcases Guarded.lands ready stands with ⟨written, given⟩ | ⟨columns, failed, refused⟩
  · rcases Kept.overwritten given with ⟨old, new, overwritten⟩
    exact .written given overwritten
  · exact .refused refused

omit [Guarded R] in
/-- Why a change is not admitted. -/
theorem admitted_eq_error
    {tables : Tables}
    (refused : admitted edit ring id expected tables = .error fault) :
    (Versioned.find tables ring id : Except Fault (Option R)) = .error fault ∨
      (Versioned.find tables ring id : Except Fault (Option R)) = .ok none ∧
        fault = .notFound (Versioned.kind R) id.display ∨
      RefusesItself edit ring id tables fault ∨
      ∃ loaded : R, Versioned.find tables ring id = .ok (some loaded) ∧
        (Versioned.stamp loaded).signature ≠ expected ∧
        fault = staleFault id expected (Versioned.stamp loaded).signature := by
  rw [admitted] at refused
  split at refused
  · next asked =>
      cases refused
      exact .inl asked
  · next asked =>
      cases refused
      exact .inr (.inl ⟨asked, rfl⟩)
  · next loaded asked =>
      split at refused
      · next stale =>
          cases refused
          exact .inr (.inr (.inr ⟨loaded, asked, stale, rfl⟩))
      · next current =>
          cases edited : edit loaded with
          | ok made =>
              rw [edited] at refused
              cases refused
          | error reason =>
              rw [edited] at refused
              cases refused
              exact .inr (.inr (.inl ⟨loaded, asked, edited⟩))

omit [Guarded R] in
/-- After the first look a change does not fail because of the record. -/
theorem elsewhere_of_admitted
    (edits : Edits change edit)
    (allowed : admitted edit ring id expected session.tables = .ok (loaded, changed))
    (lands : Lands ring (renewal ring session loaded changed) expected
      (afterUuid (afterClock session)))
    (fails : (mutate ring id expected change).Fails session fault after) :
    fault.Elsewhere := by
  rcases admitted_eq_ok allowed with ⟨found, rfl, edited⟩
  have loads : (load ring id : Work R).Gives session loaded session := gives_load.mpr ⟨found, rfl⟩
  have changes : (change loaded).Gives session changed session := by
    rw [Gives, edits, edited]
  have restamps : (restamped loaded (Versioned.prepared ring changed)).Gives session
      (renewal ring session loaded changed) (afterUuid (afterClock session)) :=
    rfl
  rw [mutate, loads.fails_bind, if_neg (by simp), changes.fails_bind, restamps.fails_bind] at fails
  cases lands with
  | refused refused =>
      cases fails.symm.trans (refused.bind _)
      exact ⟨rfl, rfl⟩
  | written given overwritten =>
      rw [given.fails_bind, if_neg (by simp)] at fails
      rcases Work.fails_bind.mp fails with registers | ⟨_, _, -, rest⟩
      · exact register_failsElsewhere _ _ _ _ _ _ registers
      · rcases Work.fails_bind.mp rest with notes | ⟨_, _, -, last⟩
        · exact note_failsElsewhere _ _ _ _ _ notes
        · cases last

theorem refusesEarly
    (intact : session.tables.Intact)
    (edits : Edits change edit)
    (keeps : KeepsId edit) :
    RefusesEarly change edit ring id expected session := by
  -- A change that fails was not admitted, or else its fault is about something else.
  have refused {fault : Fault} {after : Session}
      (fails : (mutate ring id expected change).Fails session fault after)
      (blames : ¬ fault.Elsewhere) :
      admitted edit ring id expected session.tables = .error fault := by
    cases allowed : admitted edit ring id expected session.tables with
    | error other =>
        cases fails.symm.trans (mutate_refused edits allowed)
        rfl
    | ok pair =>
        have lands := lands_of_admitted intact keeps allowed
        exact absurd (elsewhere_of_admitted edits allowed lands fails) blames
  constructor
  · intro loaded changed allowed
    exact Guarded.ready ring changed _
  · intro loaded changed allowed
    exact lands_of_admitted intact keeps allowed
  · intro fault after fails stale
    have early := refused fails fun elsewhere => by simp [elsewhere.fresh] at stale
    rcases admitted_eq_error early with unread | ⟨-, rfl⟩ | itself | ⟨loaded, found, differs, rfl⟩
    · simp [(Guarded.unread intact unread).fresh] at stale
    · cases stale
    · exact .inl itself
    · rcases Kept.found (intact.written _) found with ⟨row, stored, shows⟩
      exact .inr ⟨row, _, stored, shows.signature, differs, rfl⟩
  · intro fault after fails missing
    have early := refused fails fun elsewhere => by simp [elsewhere.found] at missing
    rcases admitted_eq_error early with unread | ⟨absent, -⟩ | itself | ⟨_, -, -, rfl⟩
    · simp [(Guarded.unread intact unread).found] at missing
    · exact .inr (Guarded.absent absent)
    · exact .inl itself
    · cases missing

end Work

/--
In a store whose records only their four statements have written, no change is refused late:
neither that of an organization nor that of a user, whatever the ring, the signature that is
expected, and the change, as long as it depends on the record alone and keeps its identifier.
A user that is to be written is always under the current key, so that it can be sealed.
-/
theorem late_refusals_are_unreachable
    {session : Session}
    (tended : session.tables.Tended)
    (ring : KeyRing)
    (expected : Signature) :
    (∀ (id : OrgId) (change : Org → Work Org) (edit : Org → Except Fault Org),
      Work.Edits change edit → Work.KeepsId edit →
        Work.RefusesEarly change edit ring id expected session) ∧
    (∀ (id : UserId) (change : User → Work User) (edit : User → Except Fault User),
      Work.Edits change edit → Work.KeepsId edit →
        Work.RefusesEarly change edit ring id expected session) ∧
    ∀ (loaded changed : User) (started : Session), ∃ texts later,
      ((Work.renewal ring session loaded changed).sealTexts ring).Gives started texts later := by
  have intact := tended.intact
  refine ⟨?_, ?_, ?_⟩
  · intro id change edit edits keeps
    exact Work.refusesEarly intact edits keeps
  · intro id change edit edits keeps
    exact Work.refusesEarly intact edits keeps
  · intro loaded changed started
    exact ⟨_, _, User.sealTexts_draws started rfl⟩

namespace Sample

/-- An organization under a signature that was never registered. -/
def unregistered : Org where
  id := ⟨.ofRandom [1]⟩
  name := "a"
  owner := ⟨.ofRandom [2]⟩
  stamp := .initial 0 1 ⟨.ofRandom [3]⟩ .active .normal Stamp.currentLayout

/-- A session in which nothing but that organization was written. -/
def tendedSession : Session :=
  .opened { Tables.empty with orgs := [OrgRow.ofOrg unregistered] } source

theorem tended_tendedSession : tendedSession.tables.Tended :=
  have inserted : Tables.empty.insertOrg (.ofOrg unregistered) =
      .ok { Tables.empty with orgs := [OrgRow.ofOrg unregistered] } := rfl
  .aside (.orgInserted (.vacant rfl rfl) inserted) rfl rfl

end Sample

/-- The organization is not changed under another signature than its own. -/
theorem other_signature_is_refused_early :
    ∃ other : Signature, other ≠ Sample.unregistered.stamp.signature ∧
      (Work.mutate Sample.ring Sample.unregistered.id other (pure : Org → Work Org)).Fails
        Sample.tendedSession
        (Work.staleFault (R := Org) Sample.unregistered.id other
          Sample.unregistered.stamp.signature)
        Sample.tendedSession ∧
      Work.RefusesEarly (pure : Org → Work Org) .ok Sample.ring Sample.unregistered.id other
        Sample.tendedSession := by
  refine ⟨⟨.ofRandom [4]⟩, by decide, rfl, ?_⟩
  refine (late_refusals_are_unreachable Sample.tended_tendedSession Sample.ring _).1 _ _ _
    (Work.edits_pure id) ?_
  rintro loaded _ ⟨⟩
  rfl

end SealedDirectory
