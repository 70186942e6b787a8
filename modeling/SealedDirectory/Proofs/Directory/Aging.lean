import SealedDirectory.Proofs.Directory.Reach
import SealedDirectory.Proofs.Directory.Rewriting

/-!
# Records that age

A record keeps the time of its creation and its place in the order for good, and the time
of its last change never steps back, whatever the clock says: a new stamp takes the later
one of the clock and of the stamp before it.  A record that is new was last changed when it
was created.  So no record was ever changed before it was created.

What a deed says of a row leaves the time of creation out, so this is read off what is
written: rows of new records, and rows that another record is written over.
-/

namespace SealedDirectory

/-! ## Times of a row -/

namespace RecordKind

/-- The cell of the time of creation. -/
def createdCell : (kind : RecordKind) → kind.Row → Cell Int
  | .org, row => OrgRow.created row
  | .user, row => UserRow.created row

/-- A row of a record that was not changed before it was created. -/
def Timed (kind : RecordKind) (row : kind.Row) : Prop :=
  ∃ created changed, kind.createdCell row = .holds created ∧
    kind.changedCell row = .holds changed ∧ created ≤ changed

/-- A row and a later one of the same record, which was not changed earlier. -/
structure Ages (kind : RecordKind) (row later : kind.Row) : Prop where
  created : kind.createdCell later = kind.createdCell row
  order : kind.orderCell later = kind.orderCell row
  changed : ∃ time renewed, kind.changedCell row = .holds time ∧
    kind.changedCell later = .holds renewed ∧ time ≤ renewed

variable {kind : RecordKind} {row middle later : kind.Row}

theorem Ages.refl (written : kind.Written row) : kind.Ages row row := by
  rcases written.changed_holds with ⟨time, holds⟩
  exact ⟨rfl, rfl, time, time, holds, holds, Int.le_refl time⟩

theorem Ages.trans
    (first : kind.Ages row middle)
    (second : kind.Ages middle later) :
    kind.Ages row later := by
  rcases first.changed with ⟨time, between, holds, holdsThen, before⟩
  rcases second.changed with ⟨again, renewed, same, holdsLast, after⟩
  cases holdsThen.symm.trans same
  exact ⟨second.created.trans first.created, second.order.trans first.order, time, renewed,
    holds, holdsLast, Int.le_trans before after⟩

/-- A record that was created before its last change is so for good. -/
theorem Timed.ages
    (timed : kind.Timed row)
    (ages : kind.Ages row later) :
    kind.Timed later := by
  rcases timed with ⟨created, changed, holds, holdsChanged, before⟩
  rcases ages.changed with ⟨time, renewed, same, holdsNow, after⟩
  cases holdsChanged.symm.trans same
  exact ⟨created, renewed, ages.created.trans holds, holdsNow,
    Int.le_trans before after⟩

end RecordKind

/-! ## Times in the tables -/

namespace Tables

variable {before middle after : Tables}

/-- No stored record was changed before it was created. -/
def Timed (tables : Tables) : Prop :=
  ∀ kind, ∀ row ∈ tables.rows kind, kind.Timed row

/-- Every record that was stored is still stored, and was not changed earlier than before. -/
def Ages (before after : Tables) : Prop :=
  ∀ kind id row, before.row? kind id = some row →
    ∃ later, after.row? kind id = some later ∧ kind.Ages row later

/-- Records age between two states of the tables, and new ones come with their times. -/
structure Endures (before after : Tables) : Prop where
  ages : Ages before after
  timed : before.Timed → after.Timed

namespace Endures

theorem refl (sound : before.Sound) : Endures before before where
  ages := by
    intro kind id row stored
    have member := (sound.row?_eq_some_iff.mp stored).1
    exact ⟨row, stored, .refl (sound.written kind row member)⟩
  timed := id

theorem trans
    (first : Endures before middle)
    (second : Endures middle after) :
    Endures before after where
  ages := by
    intro kind id row stored
    rcases first.ages kind id row stored with ⟨between, storedThen, earlier⟩
    rcases second.ages kind id between storedThen with ⟨last, storedLast, later⟩
    exact ⟨last, storedLast, earlier.trans later⟩
  timed := second.timed ∘ first.timed

end Endures

theorem Rests.endures
    (idle : Rests before after)
    (sound : before.Sound) :
    Endures before after where
  ages := by
    intro kind id row stored
    rcases (Endures.refl sound).ages kind id row stored with ⟨later, same, ages⟩
    exact ⟨later, (idle.row?_eq kind id).trans same, ages⟩
  timed := by
    intro timed kind row member
    rw [idle.rows_eq] at member
    exact timed kind row member

/-- A deed lets a record age if the row of its own record does. -/
theorem Undergoes.ages
    {deed : Deed}
    (does : Undergoes before deed after)
    (sound : before.Sound)
    (own : ∀ row, before.row? deed.sight.kind deed.sight.id = some row →
      ∃ later, after.row? deed.sight.kind deed.sight.id = some later ∧
        deed.sight.kind.Ages row later) :
    Ages before after := by
  intro kind id row stored
  by_cases concerned : deed.concerns kind id = true
  · simp only [Deed.concerns, decide_eq_true_eq] at concerned
    obtain ⟨rfl, rfl⟩ := concerned
    exact own row stored
  · rw [Bool.not_eq_true] at concerned
    have member := (sound.row?_eq_some_iff.mp stored).1
    exact ⟨row, (does.row?_of_other concerned).trans stored,
      .refl (sound.written kind row member)⟩

/-- A new record comes with its times. -/
theorem Inserted.endures
    {sight : Sight}
    {row : sight.kind.Row}
    (inserted : Inserted sight row before after)
    (sound : before.Sound)
    (timed : sight.kind.Timed row) :
    Endures before after where
  ages := by
    apply (Undergoes.inserted inserted).ages sound
    intro found stored
    cases inserted.row?_before.symm.trans stored
  timed := by
    intro others kind other member
    by_cases same : kind = sight.kind
    · subst same
      rw [inserted.rows_eq, List.mem_append, List.mem_singleton] at member
      rcases member with member | rfl
      · exact others _ other member
      · exact timed
    · rw [inserted.rows_of_ne same] at member
      exact others kind other member

/-- A record that is replaced ages if it keeps the time of its creation. -/
theorem Replaced.endures
    {sight : Sight}
    {signature : Signature}
    {entries : List Entry}
    {old new : sight.kind.Row}
    (replaced : Replaced sight signature entries old new before after)
    (sound : before.Sound)
    (created : sight.kind.createdCell new = sight.kind.createdCell old) :
    Endures before after := by
  have member := replaced.old_mem_rows sound
  have ages : sight.kind.Ages old new := by
    rcases (sound.written _ old member).changed_holds with ⟨time, holds⟩
    rcases replaced.written.changed_holds with ⟨renewed, holdsNow⟩
    exact ⟨created, replaced.sameOrder, time, renewed, holds, holdsNow,
      replaced.later time renewed holds holdsNow⟩
  constructor
  · apply (Undergoes.changed replaced).ages sound
    intro row stored
    cases replaced.row?_before.symm.trans stored
    exact ⟨new, replaced.row?_after, ages⟩
  · intro timed kind row stored
    by_cases same : kind = sight.kind
    · subst same
      rcases replaced.rows_eq with ⟨earlier, later, placed, placedThen, -⟩
      rw [placedThen, List.mem_append, List.mem_cons] at stored
      have others (other) (among : other ∈ earlier ++ later) : sight.kind.Timed other := by
        apply timed
        rw [placed]
        simp only [List.mem_append, List.mem_cons] at among ⊢
        tauto
      rcases stored with among | rfl | among
      · exact others row (List.mem_append_left _ among)
      · exact (timed _ old member).ages ages
      · exact others row (List.mem_append_right _ among)
    · rw [replaced.rows_of_ne same] at stored
      exact timed kind row stored

end Tables

open Tables

/-! ## Requests -/

namespace Directory

variable {ring : KeyRing} {before after : Session}

/-- The stamp of a new record has one time in two places. -/
theorem initialStamp_changed
    {status : Status}
    {role : Role}
    {stamp : Stamp}
    (given : (initialStamp status role).Gives before stamp after) :
    stamp.created = stamp.changed := by
  simp only [initialStamp, Work.gives_bind, Work.gives_pure] at given
  obtain ⟨order, _, -, time, _, -, signature, _, -, rfl, -⟩ := given
  rfl

theorem insertUser_changed
    {org : OrgId}
    {new : NewUser}
    {user : User}
    (given : (insertUser ring org new).Gives before user after) :
    user.stamp.created = user.stamp.changed := by
  simp only [insertUser, Work.gives_bind, Work.gives_pure] at given
  obtain ⟨id, _, -, stamp, _, stamps, -, _, -, -, _, -, rfl, -⟩ := given
  exact initialStamp_changed stamps

theorem insertOrg_changed
    {name : String}
    {new : NewOrg}
    {created : CreatedOrg}
    (given : (insertOrg ring name new).Gives before created after) :
    created.owner.stamp.created = created.owner.stamp.changed ∧
      created.org.stamp.created = created.org.stamp.changed := by
  simp only [insertOrg, Work.gives_bind, Work.gives_pure] at given
  obtain ⟨id, _, -, owner, _, inserts, stamp, _, stamps, -, _, -, -, _, -, -, _, -, rfl, -⟩ :=
    given
  exact ⟨insertUser_changed inserts, initialStamp_changed stamps⟩

/-- A change of an organization lets it age, whatever the change makes of its stamp. -/
theorem mutateOrg_endures
    {id : OrgId}
    {expected : Signature}
    {change : Org → Work Org}
    {mutation : Mutation Org}
    (looks : Work.LooksAtRecord change)
    (sound : before.tables.Sound)
    (given : (Work.mutate ring id expected change).Gives before mutation after) :
    Endures before.tables after.tables := by
  rcases Work.mutate_gives looks sound given with ⟨old, new, mutates⟩
  apply mutates.replaced.endures sound
  rw [mutates.orgOverwritten]
  rfl

/-- A change of a user lets it age likewise. -/
theorem mutateUser_endures
    {id : UserId}
    {expected : Signature}
    {change : User → Work User}
    {mutation : Mutation User}
    (looks : Work.LooksAtRecord change)
    (sound : before.tables.Sound)
    (given : (Work.mutate ring id expected change).Gives before mutation after) :
    Endures before.tables after.tables := by
  rcases Work.mutate_gives looks sound given with ⟨old, new, mutates⟩
  apply mutates.replaced.endures sound
  rcases mutates.userOverwritten with ⟨texts, -, overwritten⟩
  rw [overwritten]
  rfl

theorem changeUser_endures
    {id : UserId}
    {expected : Signature}
    {change : User → User}
    {mutation : Mutation User}
    (sound : before.tables.Sound)
    (given : (changeUser ring id expected change).Gives before mutation after) :
    Endures before.tables after.tables := by
  rcases Work.gives_transaction.mp given with ⟨middle, mutates, rfl⟩
  rw [Work.tables_commit]
  exact mutateUser_endures (Work.looksAtRecord_require _ _ _) sound mutates

theorem createUser_endures
    {org : OrgId}
    {new : NewUser}
    {user : User}
    (sound : before.tables.Sound)
    (given : (createUser ring org new).Gives before user after) :
    Endures before.tables after.tables := by
  rcases createUser_gives given with ⟨final, inserts, rfl⟩
  rcases insertUser_gives inserts with ⟨texts, inserted, -⟩
  exact inserted.endures sound ⟨_, _, rfl, rfl, Int.le_of_eq (insertUser_changed inserts)⟩

/-- The owner of a new organization is promoted right after its creation. -/
theorem createOrg_endures
    {new : NewOrg}
    {created : CreatedOrg}
    (sound : before.tables.Sound)
    (given : (createOrg ring new).Gives before created after) :
    Endures before.tables after.tables := by
  rcases createOrg_gives given with ⟨inserted, middle, final, inserts, promotes, rfl⟩
  rcases insertOrg_gives inserts with ⟨ownerTables, texts, owner, org, -⟩
  rcases insertOrg_changed inserts with ⟨ownerTimed, orgTimed⟩
  rcases promoteOwner_gives promotes with ⟨promotion, mutates, -⟩
  have soundOwner := (Undergoes.inserted owner).sound sound
  have soundThen := (Undergoes.inserted org).sound soundOwner
  have first := owner.endures sound ⟨_, _, rfl, rfl, Int.le_of_eq ownerTimed⟩
  have second := org.endures soundOwner ⟨_, _, rfl, rfl, Int.le_of_eq orgTimed⟩
  rw [Work.tables_commit]
  exact (first.trans second).trans
    (mutateUser_endures (Work.looksAtRecord_pure _) soundThen mutates)

end Directory

/-- An accepted request lets all records age. -/
theorem Request.endures
    {ring : KeyRing}
    {request : Request}
    {response : Response}
    {before after : Session}
    (sound : before.tables.Sound)
    (given : (request.perform ring).Gives before response after) :
    Endures before.tables after.tables := by
  cases request with
  | createOrg new =>
      simp only [perform, Work.gives_bind, Work.gives_pure] at given
      rcases given with ⟨created, _, creates, -, rfl⟩
      exact Directory.createOrg_endures sound creates
  | createUser org new =>
      simp only [perform, Work.gives_bind, Work.gives_pure] at given
      rcases given with ⟨user, _, creates, -, rfl⟩
      exact Directory.createUser_endures sound creates
  | setOrgStatus id expected status =>
      simp only [perform, Work.gives_bind, Work.gives_pure] at given
      rcases given with ⟨mutation, _, changes, -, rfl⟩
      rcases Work.gives_transaction.mp changes with ⟨middle, mutates, rfl⟩
      rw [Work.tables_commit]
      exact Directory.mutateOrg_endures (Work.looksAtRecord_pure _) sound mutates
  | setOwner id expected owner =>
      simp only [perform, Directory.setOwner, Work.gives_bind, Work.gives_pure,
        Work.gives_transaction] at given
      rcases given with ⟨mutation, _, ⟨final, ⟨_, middle, isMember, mutates⟩, rfl⟩, -, rfl⟩
      obtain rfl := Directory.requireMember_gives isMember
      rw [Work.tables_commit]
      exact Directory.mutateOrg_endures (Work.looksAtRecord_pure _) sound mutates
  | renameOrg id expected name =>
      simp only [perform, Work.gives_bind, Work.gives_pure] at given
      rcases given with ⟨mutation, _, changes, -, rfl⟩
      rcases Work.gives_transaction.mp changes with ⟨middle, mutates, rfl⟩
      rw [Work.tables_commit]
      exact Directory.mutateOrg_endures (Work.looksAtRecord_require _ _ _) sound mutates
  | setDisplayName _ _ _ | setPublicKey _ _ _ | setEmail _ _ _ | setPassword _ _ _
  | setUserStatus _ _ _ | rekey _ _ =>
      simp only [perform, Work.gives_bind, Work.gives_pure] at given
      rcases given with ⟨mutation, _, changes, -, rfl⟩
      exact Directory.changeUser_endures sound changes

/-! ## Events and runs -/

theorem Event.endures
    {session : Session}
    (event : Event)
    (sound : session.tables.Sound) :
    Endures session.tables (event.step session).tables := by
  cases event with
  | performed ring request =>
      rcases ran : (request.perform ring).runIn session with ⟨outcome, after⟩
      cases outcome with
      | ok response =>
          rw [step_performed ran]
          exact Request.endures sound ran
      | error fault =>
          simp only [step, ran]
          exact (Request.rests_of_fails ran).endures sound
  | answered ring query =>
      rw [step, Query.onlyReads]
      exact .refl sound
  | reopened => exact (rests_founded session.tables).endures sound

/-- Records age over any run that begins with sound tables. -/
theorem Session.endures_after
    (session : Session)
    (events : List Event)
    (sound : session.tables.Sound) :
    Endures session.tables (session.after events).tables := by
  induction events generalizing session with
  | nil => exact .refl sound
  | cons event events ih =>
      have soundThen := (event.evolves sound).sound sound
      exact (event.endures sound).trans (ih (event.step session) soundThen)

/-- After every run no record was changed before it was created. -/
theorem Session.timed_after
    (source : Source)
    (events : List Event) :
    ((founded source).after events).tables.Timed := by
  apply (endures_after _ events (sound_founded source)).timed
  intro kind row member
  cases kind <;> cases member

end SealedDirectory
