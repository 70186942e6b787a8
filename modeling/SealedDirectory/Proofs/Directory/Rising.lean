import SealedDirectory.Proofs.Directory.Failure

/-!
# Numbers rise

The next number of a sequence is above what the process remembers and above what the store
covers.  Inside a transaction one of the two is ahead of every number that was ever handed
out, whoever got it.  Between transactions it is the store alone, since a transaction that
succeeds has stored what it has drawn, and one that fails raises the marks to it.  So it
does not matter which process goes on, nor how little it remembers.
-/

namespace SealedDirectory

/-! ## Marks that are raised -/

namespace Tables

variable {tables : Tables} {sequence : Sequence} {value : Int}

theorem name_of_marked
    (marked : (tables.marks.any fun mark => mark.name = .holds sequence.name) = true) :
    ∃ mark ∈ tables.marks, mark.name = .holds sequence.name := by
  simpa [List.any_eq_true] using marked

/-- A mark that is raised holds the greater one of two numbers. -/
theorem value_raisedMark
    {mark : MarkRow}
    {used : Int}
    (holds : mark.value = .holds used) :
    ∃ reached, (raisedMark sequence value mark).value = .holds reached ∧ used ≤ reached ∧
      (mark.name = .holds sequence.name → value ≤ reached) := by
  rw [raisedMark]
  split
  · refine ⟨max used value, ?_, Int.le_max_left _ _, fun _ => Int.le_max_right _ _⟩
    simp only [holds, higher_holds]
  · next other => exact ⟨used, holds, Int.le_refl used, fun named => absurd named other⟩

theorem keeps_raiseMark (tables : Tables) (sequence : Sequence) (value : Int) :
    tables.Keeps (tables.raiseMark sequence value) := by
  have rests := rests_raiseMark tables sequence value
  refine .of_marks rests.rows_eq rests.trail rests.marked ?_
  intro mark stored used holds
  rw [raiseMark]
  split
  · rcases value_raisedMark holds with ⟨reached, raised, above, -⟩
    exact ⟨raisedMark sequence value mark, List.mem_map_of_mem stored, name_raisedMark mark,
      reached, raised, above⟩
  · exact ⟨mark, List.mem_append_left _ stored, rfl, used, holds, Int.le_refl used⟩

/-- The number that a mark is raised to is covered. -/
theorem covers_raiseMark (marked : tables.Marked) :
    (tables.raiseMark sequence value).Covers sequence value := by
  rw [raiseMark]
  split
  · next some =>
      rcases name_of_marked some with ⟨mark, stored, named⟩
      rcases marked sequence mark stored named with ⟨used, holds⟩
      rcases value_raisedMark holds with ⟨reached, raised, -, above⟩
      exact .mark (List.mem_map_of_mem stored) ((name_raisedMark mark).trans named) raised
        (above named)
  · exact .mark (List.mem_append_right _ (List.mem_singleton_self _)) rfl rfl (Int.le_refl _)

/-- Both marks are raised to what a process remembers. -/
theorem covers_raiseBoth
    (marked : tables.Marked)
    (marks : Marks)
    (sequence : Sequence) :
    ((tables.raiseMark .entity marks.entity).raiseMark .trail marks.trail).Covers sequence
      (marks.last sequence) := by
  cases sequence with
  | entity => exact (keeps_raiseMark _ _ _).covers _ _ (covers_raiseMark marked)
  | trail => exact covers_raiseMark ((rests_raiseMark tables .entity marks.entity).marked marked)

theorem Covers.of_le
    {number higher : Int}
    (covers : tables.Covers sequence higher)
    (below : number ≤ higher) :
    tables.Covers sequence number := by
  cases covers with
  | row stored holds reaches => exact .row stored holds (Int.le_trans below reaches)
  | entry stored holds reaches => exact .entry stored holds (Int.le_trans below reaches)
  | mark stored named holds reaches =>
      exact .mark stored named holds (Int.le_trans below reaches)

theorem keeps_founded (tables : Tables) : tables.Keeps tables.founded := by
  have rests := rests_founded tables
  refine .of_marks rests.rows_eq rests.trail rests.marked ?_
  intro mark stored used holds
  refine ⟨mark, ?_, rfl, used, holds, Int.le_refl used⟩
  rw [founded]
  split <;> exact stored

end Tables

/-- A transaction that is given up is rolled back, however its work ended. -/
theorem Work.runIn_givenUp
    {α : Type}
    (work : Work α)
    (fault : Fault)
    (before : Session) :
    (runIn (transaction (do let _ ← work; throw fault) : Work α) before).2 =
      rollback before.tables (work.runIn before).2 := by
  rw [runIn_transaction, runIn_bind]
  rcases work.runIn before with ⟨outcome, middle⟩
  cases outcome <;> rfl

namespace Session

/-! ## Inside a transaction -/

/-- Of two numbers of one sequence the one that was handed out later is the greater. -/
def Rising (session : Session) : Prop :=
  session.handed.Pairwise fun later earlier =>
    later.1 = earlier.1 → earlier.2 < later.2

/-- The store or the memory of the process is ahead of every number that was handed out. -/
structure Ahead (session : Session) : Prop where
  numbered : session.tables.Numbered
  rising : session.Rising
  known : ∀ sequence number, (sequence, number) ∈ session.handed →
    session.tables.Covers sequence number ∨ number ≤ session.marks.last sequence

variable {before middle : Session}

/-- A number that is drawn is above all that were handed out. -/
theorem Ahead.afterNumber
    (ahead : before.Ahead)
    {sequence : Sequence}
    {stored : Int}
    (asked : before.tables.highest sequence = .ok stored) :
    (Work.afterNumber sequence stored before).Ahead := by
  have draws := draws_afterNumber sequence stored before
  rcases ahead.numbered.knows sequence with ⟨top, knows⟩
  have known := knows.unique asked
  refine ⟨ahead.numbered, ?_, ?_⟩
  · rw [Rising, draws.handed, List.singleton_append, List.pairwise_cons]
    refine ⟨?_, ahead.rising⟩
    rintro ⟨other, number⟩ earlier same
    obtain rfl : sequence = other := same
    rcases ahead.known sequence number earlier with covers | remembered
    · have below := covers.le knows
      simp only
      omega
    · simp only
      omega
  · intro other number member
    rw [draws.handed] at member
    rcases List.mem_append.mp member with new | old
    · exact .inr (draws.covered other number new)
    · rcases ahead.known other number old with covers | remembered
      · exact .inl covers
      · exact .inr (Int.le_trans remembered (draws.rises other))

theorem Step.ahead
    (step : before.Step middle)
    (ahead : before.Ahead) :
    middle.Ahead := by
  cases step with
  | drew sequence asked => exact ahead.afterNumber asked
  | turned drawn => exact ⟨ahead.numbered, ahead.rising, ahead.known⟩
  | wrote keeps =>
      refine ⟨keeps.numbered ahead.numbered, ahead.rising, ?_⟩
      intro sequence number handed
      exact (ahead.known sequence number handed).imp_left (keeps.covers sequence number)

theorem Reaches.ahead
    (reaches : before.Reaches middle)
    (ahead : before.Ahead) :
    middle.Ahead := by
  induction reaches with
  | refl => exact ahead
  | tail _ step ih => exact step.ahead ih

/-! ## Between transactions -/

/-- Between transactions the store covers every number that was handed out. -/
structure Ordered (session : Session) : Prop where
  sound : session.tables.Sound
  settled : session.Settled
  stored : session.Stored
  rising : session.Rising

namespace Ordered

theorem ahead (ordered : before.Ordered) : before.Ahead where
  numbered := ordered.sound.numbered
  rising := ordered.rising
  known := fun sequence number handed => .inl (ordered.stored sequence number handed)

/-- A transaction that fails leaves every number in the store, by its marks. -/
theorem stored_rollback
    (ordered : before.Ordered)
    (reaches : before.Reaches middle) :
    (Work.rollback before.tables middle).Stored := by
  rcases reaches.draws with ⟨drawn, draws⟩
  intro sequence number handed
  rcases draws.remembered with ⟨rfl, same⟩ | ⟨some, unsaved⟩
  · have saved : middle.marks.unsaved = false := by rw [same, ordered.settled.saved]
    rw [Work.rollback_of_saved saved] at handed ⊢
    have earlier : (sequence, number) ∈ before.handed := by simpa [draws.handed] using handed
    exact ordered.stored sequence number earlier
  · rw [Work.rollback_of_unsaved unsaved] at handed ⊢
    simp only [draws.handed] at handed
    rcases List.mem_append.mp handed with new | earlier
    · exact (Tables.covers_raiseBoth ordered.sound.marked middle.marks sequence).of_le
        (draws.covered sequence number new)
    · exact ((Tables.keeps_raiseMark _ _ _).trans (Tables.keeps_raiseMark _ _ _)).covers
        sequence number (ordered.stored sequence number earlier)

theorem rollback
    (ordered : before.Ordered)
    (reaches : before.Reaches middle) :
    (Work.rollback before.tables middle).Ordered where
  sound := (Tables.rests_rollback middle).sound ordered.sound
  settled := by
    rcases reaches.draws with ⟨drawn, draws⟩
    exact ordered.settled.rollback draws
  stored := ordered.stored_rollback reaches
  rising := (reaches.ahead ordered.ahead).rising

theorem commit
    (ordered : before.Ordered)
    (reaches : before.Reaches middle)
    (stores : before.Stored → middle.Stored)
    (sound : middle.tables.Sound) :
    (Work.commit middle).Ordered where
  sound := sound
  settled := by
    rcases reaches.draws with ⟨drawn, draws⟩
    exact ordered.settled.commit draws
  stored := stores ordered.stored
  rising := (reaches.ahead ordered.ahead).rising

/-- A process that opens the store remembers nothing, and need not. -/
theorem reopened (ordered : before.Ordered) : before.reopened.Ordered where
  sound := (Tables.rests_founded before.tables).sound ordered.sound
  settled := settled_fresh rfl
  stored := fun sequence number handed =>
    (Tables.keeps_founded before.tables).covers sequence number
      (ordered.stored sequence number handed)
  rising := ordered.rising

theorem step
    (ordered : before.Ordered)
    (event : Event) :
    (event.step before).Ordered := by
  have sound := (event.evolves ordered.sound).sound ordered.sound
  cases event with
  | performed ring request =>
      rw [Event.step] at sound ⊢
      cases request.ends ring before with
      | refused refusal =>
          rw [refusal]
          exact ordered
      | failed reaches failure =>
          rw [failure]
          exact ordered.rollback reaches
      | succeeded reaches stores success =>
          rw [success] at sound ⊢
          exact ordered.commit reaches stores sound
  | answered ring query =>
      rw [Event.step, Query.onlyReads]
      exact ordered
  | reopened => exact ordered.reopened

/-- A transaction that goes by steps is in order when it is given up. -/
theorem attempt
    (ordered : before.Ordered)
    {α : Type}
    {work : Work α}
    (bySteps : work.BySteps)
    (fault : Fault) :
    (Work.runIn (Work.transaction (do let _ ← work; throw fault) : Work α) before).2.Ordered := by
  rw [Work.runIn_givenUp]
  exact ordered.rollback (bySteps before)

end Ordered

end Session

end SealedDirectory
