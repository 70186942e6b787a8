import SealedDirectory.Directory.Mutation
import SealedDirectory.Proofs.Directory.Evolution

/-!
# What a change does

A change that succeeds goes through the same steps every time: the record is loaded and
changed, gets a renewed stamp, is written over its row, and is noted.  The record that is
written is determined by what was loaded, by the change and by what is drawn next.

So a change that succeeds has replaced the one row that has the identifier and the expected
signature, by a row that shows the changed record, and has noted exactly the watched
columns that differ between the two rows.  The change itself may look at the record
only; it may return any record at all, even one with another identifier, which is never
accepted.
-/

namespace SealedDirectory

namespace Work

variable {R : Type} [Versioned R] {ring : KeyRing} {session later : Session}

@[simp]
theorem gives_load
    {id : Id (Versioned.idKind R)} {record : R} :
    (load ring id).Gives session record later ↔
      Versioned.find session.tables ring id = .ok (some record) ∧ later = session := by
  rw [load, gives_bind]
  constructor
  · rintro ⟨found, middle, asked, rest⟩
    rcases gives_ask.mp asked with ⟨answer, rfl⟩
    cases found with
    | none => simp at rest
    | some stored =>
        rcases gives_pure.mp rest with ⟨rfl, rfl⟩
        exact ⟨answer, rfl⟩
  · rintro ⟨answer, rfl⟩
    exact ⟨some record, later, gives_ask.mpr ⟨answer, rfl⟩, gives_pure.mpr ⟨rfl, rfl⟩⟩

/-- A change looks at the record alone: it leaves the session as it is. -/
def LooksAtRecord (change : R → Work R) : Prop :=
  ∀ record session changed later, (change record).Gives session changed later →
    later = session

omit [Versioned R] in
theorem looksAtRecord_ofExcept (change : R → Except Fault R) :
    LooksAtRecord fun record => ofExcept (change record) := by
  intro record session changed later given
  exact (gives_ofExcept.mp given).2

omit [Versioned R] in
theorem looksAtRecord_pure (change : R → R) :
    LooksAtRecord fun record => (pure (change record) : Work R) := by
  intro record session changed later given
  exact (gives_pure.mp given).2

omit [Versioned R] in
theorem looksAtRecord_require
    {ρ : Type} (check : R → Except ρ Unit) (fault : ρ → Fault) (change : R → R) :
    LooksAtRecord fun record => do
      require (check record) fault
      return change record := by
  intro record session changed later given
  simp only [gives_bind, gives_require, gives_pure] at given
  rcases given with ⟨-, _, ⟨-, rfl⟩, -, rfl⟩
  rfl

/-- A record gets a stamp with a time that is not earlier than the one before. -/
theorem restamped_gives
    [Kept R] {before after record : R}
    (given : (restamped before after).Gives session record later) :
    (∃ stamp, record = Versioned.withStamp after stamp) ∧
      (Versioned.stamp before).changed ≤ (Versioned.stamp record).changed ∧
      later.tables = session.tables := by
  simp only [restamped, gives_bind, gives_now, gives_freshId, gives_pure] at given
  rcases given with ⟨time, -, ⟨-, rfl⟩, signature, -, ⟨-, rfl⟩, rfl, rfl⟩
  refine ⟨⟨_, rfl⟩, ?_, rfl⟩
  rw [Kept.stamp_withStamp]
  exact Stamp.changed_le_changed_renewed _ _ _ _

end Work

/-! ## The steps of a change -/

/-- An identifier that will be drawn after so many others. -/
def Session.uuidAhead
    (session : Session)
    (count : Nat) :
    Uuid :=
  session.source.uuid (session.drawn.uuid + count)

namespace Work

variable
  {R : Type}
  [Versioned R]
  {ring : KeyRing}
  {id : Id (Versioned.idKind R)}
  {expected : Signature}
  {change : R → Work R}
  {mutation : Mutation R}
  {before after : Session}

/-- The record that a change leads to, with the next identifier as its signature. -/
def renewal
    (ring : KeyRing)
    (session : Session)
    (loaded changed : R) :
    R :=
  let after := Versioned.prepared ring changed
  Versioned.withStamp after (Stamp.renewed (Versioned.stamp loaded) (Versioned.stamp after)
    (session.source.clock session.drawn.clock).seconds ⟨session.uuidAhead 0⟩)

/-- What happened in a change that succeeded, one step after the other. -/
structure Steps
    (ring : KeyRing)
    (id : Id (Versioned.idKind R))
    (expected : Signature)
    (change : R → Work R)
    (mutation : Mutation R)
    (loaded changed : R)
    (written registered before after : Session) :
    Prop where
  found : Versioned.find before.tables ring id = .ok (some loaded)
  current : (Versioned.stamp loaded).signature = expected
  changes : (change loaded).Gives before changed before
  record : mutation.record = renewal ring before loaded changed
  overwrites : (Versioned.overwrite ring mutation.record expected).Gives
    (afterUuid (afterClock before)) true written
  registers : written.tables.register (Versioned.stamp mutation.record).signature
    (Versioned.kind R) (Versioned.stamp mutation.record).changed = .ok registered.tables
  sameDraws : registered = { written with tables := registered.tables }
  notes : (note loaded mutation.record).Gives registered mutation.entries after

theorem mutate_steps
    (looks : LooksAtRecord change)
    (given : (mutate ring id expected change).Gives before mutation after) :
    ∃ loaded changed written registered,
      Steps ring id expected change mutation loaded changed written registered before
        after := by
  simp only [mutate, gives_bind, gives_ite, gives_throw, gives_pure, gives_load,
    gives_execute, false_and, and_false, false_or, exists_false] at given
  obtain ⟨loaded, start, ⟨found, rfl⟩, current, changed, _, changes, record, stamped,
    restamps, updated, written, overwrites, succeeded, -, _, ⟨tables, registers, rfl⟩,
    entries, _, notes, rfl, rfl⟩ := given
  obtain rfl := (looks _ _ _ _ changes).symm
  obtain rfl : updated = true := by simpa using succeeded
  have renews : (restamped loaded (Versioned.prepared ring changed)).Gives start
      (renewal ring start loaded changed) (afterUuid (afterClock start)) :=
    rfl
  rcases restamps.unique renews with ⟨rfl, rfl⟩
  exact ⟨loaded, changed, written, _, {
    found
    current := by simpa using current
    changes
    record := rfl
    overwrites
    registers
    sameDraws := rfl
    notes }⟩

end Work

/-! ## Rows that are written over -/

namespace Tables

variable {kind : RecordKind} {before after : Tables} {old new : kind.Row}

/-- Writing over a row keeps its place and all others. -/
theorem Overwritten.numbered
    (overwritten : Overwritten kind old new before after)
    (written : kind.Written new)
    (sound : before.Sound) :
    after.Numbered := by
  rcases overwritten with ⟨earlier, later, placed, rfl, -⟩
  rcases numbered_iff.mp sound.numbered with ⟨rows, trail, marks⟩
  refine numbered_iff.mpr ⟨?_, ?_, ?_⟩
  · intro other row member
    by_cases sameKind : other = kind
    · subst sameKind
      rw [rows_restore, List.mem_append, List.mem_cons] at member
      rcases member with inEarlier | rfl | inLater
      · exact rows other row (by rw [placed]; exact List.mem_append_left _ inEarlier)
      · exact written.order_holds
      · apply rows other row
        rw [placed]
        exact List.mem_append_right _ (List.mem_cons_of_mem _ inLater)
    · rw [rows_restore_of_ne sameKind] at member
      exact rows other row member
  · rwa [trail_restore]
  · rwa [Marked, marks_restore]

theorem Numbered.registering
    (numbered : before.Numbered) (signature : Signature) (kind : RecordKind) (time : Int) :
    (before.registering signature kind time).Numbered :=
  numbered

theorem Overwritten.old_mem (overwritten : Overwritten kind old new before after) :
    old ∈ before.rows kind := by
  rcases overwritten with ⟨earlier, later, placed, -, -⟩
  rw [placed]
  exact List.mem_append_right _ (List.mem_cons_self ..)

theorem Overwritten.registered_iff
    (overwritten : Overwritten kind old new before after) (signature : Signature) :
    after.Registered signature ↔ before.Registered signature := by
  rcases overwritten with ⟨earlier, later, -, rfl, -⟩
  rw [registered_restore]

theorem Overwritten.trail_eq (overwritten : Overwritten kind old new before after) :
    after.trail = before.trail := by
  rcases overwritten with ⟨earlier, later, -, rfl, -⟩
  rw [trail_restore]

end Tables

variable {R : Type} [Versioned R] [Kept R]

/-- The row that is written over is the one that was loaded. -/
theorem OverwrittenBy.loaded
    {ring : KeyRing} {id : Id (Versioned.idKind R)} {loaded record : R}
    {expected : Signature} {old new : (Versioned.kind R).Row} {before after : Tables}
    (overwritten : OverwrittenBy record expected old new before after)
    (sound : before.Sound)
    (found : Versioned.find before ring id = .ok (some loaded))
    (current : (Versioned.stamp loaded).signature = expected) :
    before.row? (Versioned.kind R) id.uuid = some old ∧ Shows loaded old := by
  rcases Kept.found (sound.written _) found with ⟨row, stored, shows⟩
  have inTable := (sound.row?_eq_some_iff.mp stored).1
  have same : row = old := by
    apply sound.eq_of_signature inTable overwritten.overwritten.old_mem
    rw [shows.signature, overwritten.guarded, current]
  subst same
  exact ⟨stored, shows⟩

omit [Kept R] in
/-- The numbers in the store stay numbers when a record is written over its row. -/
theorem OverwrittenBy.numbered
    {record : R} {expected : Signature} {old new : (Versioned.kind R).Row}
    {before after : Tables}
    (overwritten : OverwrittenBy record expected old new before after)
    (sound : before.Sound) :
    after.Numbered :=
  overwritten.overwritten.numbered
    (overwritten.written (sound.written _ old overwritten.overwritten.old_mem)) sound

/-- The steps of a change that succeeded, and what they did to the tables. -/
structure Work.Mutates
    (ring : KeyRing) (id : Id (Versioned.idKind R)) (expected : Signature)
    (change : R → Work R) (mutation : Mutation R) (old new : (Versioned.kind R).Row)
    (before after : Session) :
    Prop where
  replaced : Tables.Replaced ⟨Versioned.kind R, id.uuid, expected⟩
    (Versioned.stamp mutation.record).signature mutation.entries old new
    before.tables after.tables
  shows : Shows mutation.record new
  /-- The record is what the change made of the loaded one, ready for writing. -/
  made : ∃ loaded changed stamp,
    Versioned.find before.tables ring id = .ok (some loaded) ∧
      (change loaded).Gives before changed before ∧
      mutation.record = Versioned.withStamp (Versioned.prepared ring changed) stamp
  /-- After the record was written no row was touched any more. -/
  wrote : ∃ stamped written,
    (Versioned.overwrite ring mutation.record expected).Gives stamped true written ∧
      stamped.tables = before.tables ∧
      ∀ kind, after.tables.rows kind = written.tables.rows kind

omit [Kept R] in
/-- The record that is written is the one that was asked for. -/
theorem Work.Mutates.sameId
    {ring : KeyRing} {id : Id (Versioned.idKind R)} {expected : Signature}
    {change : R → Work R} {mutation : Mutation R} {old new : (Versioned.kind R).Row}
    {before after : Session}
    (mutates : Mutates ring id expected change mutation old new before after) :
    Versioned.id mutation.record = id := by
  have cells := mutates.shows.id.symm.trans mutates.replaced.newId
  have sameUuid : (Versioned.id mutation.record).uuid = id.uuid := by simpa using cells
  exact congrArg Id.mk sameUuid

namespace Work.Steps

variable
  {ring : KeyRing}
  {id : Id (Versioned.idKind R)}
  {expected : Signature}
  {change : R → Work R}
  {mutation : Mutation R}
  {loaded changed : R}
  {written registered before after : Session}
  {old new : (Versioned.kind R).Row}

theorem notEarlier
    (steps : Steps ring id expected change mutation loaded changed written registered before
      after) :
    (Versioned.stamp loaded).changed ≤ (Versioned.stamp mutation.record).changed := by
  rw [steps.record, renewal, Kept.stamp_withStamp]
  exact Stamp.changed_le_changed_renewed _ _ _ _

/-- The steps of a change replace the row that was written over, and touch no other one. -/
theorem replaced
    (steps : Steps ring id expected change mutation loaded changed written registered before
      after)
    (sound : before.tables.Sound)
    (overwritten : OverwrittenBy mutation.record expected old new before.tables
      written.tables) :
    Tables.Replaced ⟨Versioned.kind R, id.uuid, expected⟩
        (Versioned.stamp mutation.record).signature mutation.entries old new before.tables
        after.tables ∧
      ∀ kind, after.tables.rows kind = written.tables.rows kind := by
  rcases overwritten.loaded sound steps.found steps.current with ⟨stored, showsOld⟩
  rcases sound.row?_eq_some_iff.mp stored with ⟨inTable, holdsId⟩
  have showsNew := overwritten.shows
  -- The change may return any identifier, but only the one that is stored can be written.
  have sameId : (Versioned.id mutation.record).uuid = id.uuid := by
    have cells := showsNew.id.symm.trans (overwritten.sameId.trans holdsId)
    simpa using cells
  rcases Tables.register_eq_ok.mp steps.registers with ⟨fresh, tables⟩
  have numbered : registered.tables.Numbered := by
    rw [tables]
    exact (overwritten.numbered sound).registering _ _ _
  obtain ⟨first, known, knows, above, consecutive, told, together, noted⟩ :=
    note_gives steps.notes numbered showsOld showsNew
  rw [sameId] at told
  rw [tables] at knows noted
  have notEarlier := steps.notEarlier
  refine ⟨{
    id := holdsId
    sameId := overwritten.sameId
    sameOrder := overwritten.sameOrder
    guarded := overwritten.guarded
    written := overwritten.written (sound.written _ old inTable)
    renewed := showsNew.signature
    fresh := by rwa [← overwritten.overwritten.registered_iff]
    later := by
      intro time renewed wasChanged isChanged
      rw [showsOld.changed, Cell.holds.injEq] at wasChanged
      rw [showsNew.changed, Cell.holds.injEq] at isChanged
      omega
    told
    numbered := by
      refine ⟨first, consecutive, ?_⟩
      intro row member number holds
      have inTrail : .holds number ∈ written.tables.trail.map EntryRow.order := by
        rw [overwritten.overwritten.trail_eq, ← holds]
        exact List.mem_map_of_mem member
      have bound := knows.above (written.tables.trail.map EntryRow.order)
        (by simp [Tables.usedNumbers, Tables.registering]) number inTrail
      omega
    together
    tables := ⟨_, _, overwritten.overwritten, noted⟩ }, ?_⟩
  intro kind
  rw [noted, Tables.rows_noting, Tables.rows_registering]

end Work.Steps

/-- A change that succeeds replaces the row with the expected signature. -/
theorem Work.mutate_gives
    {ring : KeyRing} {id : Id (Versioned.idKind R)} {expected : Signature}
    {change : R → Work R} {mutation : Mutation R} {before after : Session}
    (looks : LooksAtRecord change)
    (sound : before.tables.Sound)
    (given : (mutate ring id expected change).Gives before mutation after) :
    ∃ old new, Mutates ring id expected change mutation old new before after := by
  obtain ⟨loaded, changed, written, registered, steps⟩ := mutate_steps looks given
  rcases Kept.overwritten steps.overwrites with ⟨old, new, overwritten⟩
  rcases steps.replaced sound overwritten with ⟨replaced, rows⟩
  exact ⟨old, new, replaced, overwritten.shows,
    ⟨loaded, changed, _, steps.found, steps.changes, steps.record⟩,
    _, written, steps.overwrites, rfl, rows⟩

end SealedDirectory
