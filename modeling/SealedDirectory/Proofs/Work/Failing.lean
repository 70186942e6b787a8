import SealedDirectory.Proofs.Work.Outcome

/-!
# Failures of operations

A sequence of operations fails with its first member, or the first one succeeds and the
second one fails in what it leaves behind.  So the faults with which an operation can fail
are known if those of its members are.
-/

namespace SealedDirectory

variable {α β : Type}

/-- A sequence of two steps fails if the first does, or else the second. -/
theorem bind_eq_error
    {ε : Type}
    {first : Except ε α}
    {next : α → Except ε β}
    {fault : ε} :
    (first >>= next) = .error fault ↔
      first = .error fault ∨ ∃ value, first = .ok value ∧ next value = .error fault := by
  cases first with
  | error other => simp [bind, Except.bind]
  | ok value => simp [bind, Except.bind]

theorem mapM_eq_error
    {ε : Type}
    {option : Option α}
    {read : α → Except ε β}
    {fault : ε} :
    option.mapM read = .error fault ↔
      ∃ item, option = some item ∧ read item = .error fault := by
  cases option with
  | none => simp [pure, Except.pure]
  | some item => cases outcome : read item <;> simp [Functor.map, Except.map, outcome]

theorem mapM_eq_ok_none
    {ε : Type}
    {option : Option α}
    {read : α → Except ε β} :
    option.mapM read = .ok none ↔ option = none := by
  cases option with
  | none => simp [pure, Except.pure]
  | some item => cases outcome : read item <;> simp [Functor.map, Except.map, outcome]

namespace Work

variable {before after : Session} {fault : Fault}

theorem fails_bind
    {work : Work α}
    {next : α → Work β} :
    (work >>= next).Fails before fault after ↔
      work.Fails before fault after ∨
        ∃ first middle, work.Gives before first middle ∧
          (next first).Fails middle fault after := by
  simp only [Fails, Gives, runIn_bind]
  rcases work.runIn before with ⟨outcome, middle⟩
  cases outcome with
  | error other => simp
  | ok first => simp [and_assoc]

/-- After a success a sequence fails as what follows does. -/
theorem Gives.fails_bind
    {work : Work α}
    {next : α → Work β}
    {value : α}
    {middle : Session}
    (given : work.Gives before value middle) :
    (work >>= next).Fails before fault after ↔ (next value).Fails middle fault after := by
  rw [Gives] at given
  simp only [Fails, runIn_bind, given]

/-- A statement that is refused fails and changes nothing. -/
theorem answer_fails
    {statement : Tables → Except Fault (Tables × α)}
    (refused : statement before.tables = .error fault) :
    (answer statement).Fails before fault before := by
  rw [Fails, runIn_answer, refused]

/-! ## Faults that an operation can fail with -/

/-- In every session an operation fails with certain faults only. -/
def FailsOnly
    (possible : Fault → Prop)
    (work : Work α) :
    Prop :=
  ∀ before fault after, work.Fails before fault after → possible fault

variable {possible : Fault → Prop}

/-- An operation that always succeeds fails with no fault. -/
theorem failsOnly_of_gives
    {work : Work α}
    (succeeds : ∀ before, ∃ value after, work.Gives before value after) :
    work.FailsOnly possible := by
  intro before fault after fails
  rcases succeeds before with ⟨value, middle, given⟩
  cases given.symm.trans fails

theorem FailsOnly.bind
    {work : Work α}
    {next : α → Work β}
    (first : work.FailsOnly possible)
    (rest : ∀ value, (next value).FailsOnly possible) :
    (work >>= next).FailsOnly possible := by
  intro before fault after fails
  rcases Work.fails_bind.mp fails with begins | ⟨value, middle, -, ends⟩
  · exact first before fault after begins
  · exact rest value middle fault after ends

theorem FailsOnly.mapM
    {f : α → Work β}
    (each : ∀ item, (f item).FailsOnly possible)
    (items : List α) :
    (items.mapM f).FailsOnly possible := by
  induction items with
  | nil => exact failsOnly_of_gives fun before => ⟨[], before, rfl⟩
  | cons item items ih =>
      rw [List.mapM_cons]
      refine (each item).bind fun first => ih.bind fun others => ?_
      exact failsOnly_of_gives fun before => ⟨first :: others, before, rfl⟩

theorem failsOnly_ask
    {question : Tables → Except Fault α}
    (asked : ∀ tables fault, question tables = .error fault → possible fault) :
    (ask question).FailsOnly possible := by
  intro before fault after fails
  rw [Fails, runIn_ask] at fails
  exact asked before.tables fault (congrArg Prod.fst fails)

theorem failsOnly_execute
    {statement : Tables → Except Fault Tables}
    (stated : ∀ tables fault, statement tables = .error fault → possible fault) :
    (execute statement).FailsOnly possible := by
  intro before fault after fails
  rw [Fails, execute, runIn_answer] at fails
  cases outcome : statement before.tables with
  | ok changed =>
      rw [outcome] at fails
      cases fails
  | error other =>
      rw [outcome] at fails
      cases fails
      exact stated before.tables _ outcome

/-- A number is drawn unless the store does not answer. -/
theorem failsOnly_nextNumber
    {sequence : Sequence}
    (asked : ∀ tables fault,
      Tables.highest tables sequence = .error fault → possible fault) :
    (nextNumber sequence).FailsOnly possible :=
  (failsOnly_ask asked).bind fun _ => failsOnly_of_gives fun _ => ⟨_, _, rfl⟩

end Work

end SealedDirectory
