import SealedDirectory.Proofs.Directory.Aging
import SealedDirectory.Proofs.Trail.Links

/-!
# Times in the trail

An entry leads from the time of the last change of a record to the time of the change that
it tells of, and neither of them is read off the clock alone: a record that is changed never
gets an earlier time.  So along the entries of one record times do not step back, although
the clock may, and although changes that leave no entry happen in between.

The invariant ties the entries of a record to its row: no entry leads beyond the time of
the last change that is stored there.
-/

namespace SealedDirectory

open Tables

/-! ## Entries and rows -/

/-- An entry is about a stored record that was last changed at its time or later. -/
def Entry.IsPast (entry : Entry) (tables : Tables) : Prop :=
  ∃ (kind : RecordKind) (id : Uuid) (row : kind.Row) (changed : Int),
    entry.kind = kind ∧ entry.entity = id.text ∧ tables.row? kind id = some row ∧
      kind.changedCell row = .holds changed ∧ entry.newTime ≤ changed

/-- Two entries are about one record. -/
structure Entry.OfOneRecord (entry other : Entry) : Prop where
  kind : entry.kind = other.kind
  entity : entry.entity = other.entity

namespace Tables

variable {before after : Tables} {entries earlier : List Entry}

/-- Entries whose times do not step back, and that lead up to what is stored. -/
structure Timely (tables : Tables) (entries : List Entry) : Prop where
  noted : tables.Noted entries
  forward : ∀ entry ∈ entries, entry.oldTime ≤ entry.newTime
  past : ∀ entry ∈ entries, entry.IsPast tables
  inTime : entries.Pairwise fun entry later =>
    entry.OfOneRecord later → entry.newTime ≤ later.newTime

theorem Rests.isPast
    {entry : Entry}
    (idle : Rests before after)
    (past : entry.IsPast before) :
    entry.IsPast after := by
  rcases past with ⟨kind, id, row, changed, ofKind, entity, stored, rest⟩
  exact ⟨kind, id, row, changed, ofKind, entity, (idle.row?_eq kind id).trans stored, rest⟩

/-- A record that an entry is about stays stored and is not changed earlier. -/
theorem Undergoes.isPast
    {deed : Deed}
    {entry : Entry}
    (does : Undergoes before deed after)
    (past : entry.IsPast before) :
    entry.IsPast after := by
  rcases past with ⟨kind, id, row, changed, ofKind, entity, stored, holds, notLater⟩
  by_cases concerned : deed.concerns kind id = true
  · have ofDeed := concerned
    simp only [Deed.concerns, decide_eq_true_eq] at ofDeed
    obtain ⟨rfl, rfl⟩ := ofDeed
    cases does with
    | inserted inserts => cases inserts.row?_before.symm.trans stored
    | @changed _ _ _ _ new _ replaced =>
        cases replaced.row?_before.symm.trans stored
        rcases replaced.written.changed_holds with ⟨renewed, holdsNow⟩
        have later := replaced.later changed renewed holds holdsNow
        exact ⟨_, _, new, renewed, ofKind, entity, replaced.row?_after, holdsNow,
          Int.le_trans notLater later⟩
  · rw [Bool.not_eq_true] at concerned
    exact ⟨kind, id, row, changed, ofKind, entity, (does.row?_of_other concerned).trans stored,
      holds, notLater⟩

namespace Replaced

variable
  {sight : Sight}
  {signature : Signature}
  {old new : sight.kind.Row}

/-- The entries of a change have the times of the rows before and after it. -/
theorem times_eq
    (replaced : Replaced sight signature entries old new before after)
    (sound : before.Sound) :
    ∀ entry ∈ entries, sight.kind.changedCell old = .holds entry.oldTime ∧
      sight.kind.changedCell new = .holds entry.newTime := by
  intro entry member
  have stored := replaced.old_mem_rows sound
  rcases (sound.written _ old stored).changed_holds with ⟨time, holds⟩
  rcases replaced.written.changed_holds with ⟨renewed, holdsNow⟩
  have tells := replaced.told.each entry member
  have oldTime := tells.oldTime
  have newTime := tells.newTime
  rw [RecordKind.value_changed, holds] at oldTime
  rw [RecordKind.value_changed, holdsNow] at newTime
  rw [holds, holdsNow, Content.integer.inj oldTime, Content.integer.inj newTime]
  exact ⟨rfl, rfl⟩

/-- An earlier entry about the record that is changed leads no further than the change. -/
theorem newTime_le
    {entry later : Entry}
    (replaced : Replaced sight signature entries old new before after)
    (sound : before.Sound)
    (past : entry.IsPast before)
    (member : later ∈ entries)
    (same : entry.OfOneRecord later) :
    entry.newTime ≤ later.newTime := by
  rcases past with ⟨kind, id, row, changed, ofKind, entity, stored, holds, notLater⟩
  have tells := replaced.told.each later member
  obtain rfl : kind = sight.kind := ofKind.symm.trans (same.kind.trans tells.kind)
  obtain rfl : id = sight.id :=
    Uuid.text_injective (entity.symm.trans (same.entity.trans tells.entity))
  cases replaced.row?_before.symm.trans stored
  rcases replaced.times_eq sound later member with ⟨oldTime, newTime⟩
  cases holds.symm.trans oldTime
  exact Int.le_trans notLater (replaced.later _ _ oldTime newTime)

end Replaced

/-! ## The trail stays timely -/

namespace Timely

theorem empty : Tables.empty.Timely [] where
  noted := ⟨rfl, .nil, by simp⟩
  forward := by simp
  past := by simp
  inTime := .nil

theorem rests
    (timely : before.Timely entries)
    (idle : Rests before after) :
    after.Timely entries where
  noted := idle.noted timely.noted
  forward := timely.forward
  past := fun entry member => idle.isPast (timely.past entry member)
  inTime := timely.inTime

theorem inserted
    {sight : Sight}
    {row : sight.kind.Row}
    (timely : before.Timely entries)
    (inserts : Inserted sight row before after) :
    after.Timely entries where
  noted := inserts.noted timely.noted
  forward := timely.forward
  past := fun entry member => (Undergoes.inserted inserts).isPast (timely.past entry member)
  inTime := timely.inTime

/-- A change adds entries that lead from the stored time to the one that is stored then. -/
theorem replaced
    {sight : Sight}
    {signature : Signature}
    {old new : sight.kind.Row}
    (timely : before.Timely earlier)
    (replaces : Replaced sight signature entries old new before after)
    (sound : before.Sound) :
    after.Timely (earlier ++ entries) := by
  have times := replaces.times_eq sound
  constructor
  · exact replaces.noted sound timely.noted
  · intro entry member
    rcases List.mem_append.mp member with wasThere | added
    · exact timely.forward entry wasThere
    · rcases times entry added with ⟨oldTime, newTime⟩
      exact replaces.later _ _ oldTime newTime
  · intro entry member
    rcases List.mem_append.mp member with wasThere | added
    · exact (Undergoes.changed replaces).isPast (timely.past entry wasThere)
    · have tells := replaces.told.each entry added
      exact ⟨sight.kind, sight.id, new, entry.newTime, tells.kind, tells.entity,
        replaces.row?_after, (times entry added).2, Int.le_refl _⟩
  · refine List.pairwise_append.mpr ⟨timely.inTime, ?_, ?_⟩
    · refine List.Pairwise.imp_of_mem ?_ replaces.beside
      intro entry later member laterMember _ _
      have same := (times entry member).2.symm.trans (times later laterMember).2
      exact Int.le_of_eq (Cell.holds.inj same)
    · intro entry wasThere later added same
      exact replaces.newTime_le sound (timely.past entry wasThere) added same

theorem evolves
    {deeds : List Deed}
    (timely : before.Timely entries)
    (evolves : Evolves before deeds after)
    (sound : before.Sound) :
    ∃ entries, after.Timely entries := by
  induction evolves generalizing entries with
  | done => exact ⟨entries, timely⟩
  | rests idle next ih => exact ih (timely.rests idle) (idle.sound sound)
  | undergoes does next ih =>
      have soundThen := does.sound sound
      cases does with
      | inserted inserts => exact ih (timely.inserted inserts) soundThen
      | changed replaces => exact ih (timely.replaced replaces sound) soundThen

/-- Entries with greater numbers do not have smaller times. -/
theorem newTime_le_of_order_lt
    {tables : Tables}
    {entry later : Entry}
    (timely : tables.Timely entries)
    (member : entry ∈ entries)
    (laterMember : later ∈ entries)
    (same : entry.OfOneRecord later)
    (after : entry.order < later.order) :
    entry.newTime ≤ later.newTime := by
  -- Said of both orders of two entries, the statement no longer minds which one is first.
  let InOrder (first second : Entry) : Prop :=
    (first.OfOneRecord second → first.order < second.order → first.newTime ≤ second.newTime) ∧
      (second.OfOneRecord first → second.order < first.order → second.newTime ≤ first.newTime)
  have inOrder : entries.Pairwise InOrder := by
    refine (timely.inTime.and timely.noted.ascending).imp ?_
    rintro first second ⟨inTime, ascends⟩
    exact ⟨fun ofOne _ => inTime ofOne, fun _ descends => absurd ascends (by omega)⟩
  have itself (first) (_ : first ∈ entries) : InOrder first first :=
    ⟨fun _ less => absurd less (by omega), fun _ less => absurd less (by omega)⟩
  have symmetric : Std.Symm InOrder := ⟨fun first second both => ⟨both.2, both.1⟩⟩
  exact (inOrder.forall_of_forall itself member laterMember).1 same after

end Timely

end Tables

/-! ## The main statement -/

/-- The entries of the trail, whose times go forward, and never back along one record. -/
structure Tables.InTime (tables : Tables) (entries : List Entry) : Prop where
  trail : tables.trail = entries.map EntryRow.ofEntry
  forward : ∀ entry ∈ entries, entry.oldTime ≤ entry.newTime
  /-- Of two entries of one record the one with the greater number has no smaller time. -/
  ordered : ∀ entry ∈ entries, ∀ later ∈ entries, entry.OfOneRecord later →
    entry.order < later.order → entry.newTime ≤ later.newTime

/--
In every run from an empty store, whatever the clock shows: no stored record was changed
before it was created.  Whatever is done later, a record that is stored at some moment of the
run stays stored, with its time of creation and its place, and its time of change does not
go down.  Every entry of the trail leads forward in time, and along the numbers of the
entries of one record their times do not step back.
-/
theorem times_never_step_back
    (source : Source)
    (earlier later : List Event) :
    ((Session.founded source).after earlier).tables.Timed ∧
      Ages ((Session.founded source).after earlier).tables
        ((Session.founded source).after (earlier ++ later)).tables ∧
      ∃ entries, ((Session.founded source).after earlier).tables.InTime entries := by
  have sound := Session.sound_after source earlier
  have endures := ((Session.founded source).after earlier).endures_after later sound
  have evolves := Session.evolves_from_empty source earlier
  rcases Timely.empty.evolves evolves .empty with ⟨entries, timely⟩
  refine ⟨Session.timed_after source earlier, ?_, entries, ?_⟩
  · rw [Session.after_append]
    exact endures.ages
  · exact ⟨timely.noted.trail, timely.forward, fun entry member later laterMember =>
      timely.newTime_le_of_order_lt member laterMember⟩

end SealedDirectory
