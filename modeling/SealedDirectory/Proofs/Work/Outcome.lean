import SealedDirectory.Work.Session

/-!
# Outcomes of operations

An operation either gives a value or fails, and leaves a session in both cases.  The
success of a sequence of operations is taken apart into the successes of its members,
and the success of a single one into what it asks of the session that it finds and
what it leaves behind.  The failure of a transaction is traced back to the failure of
the work inside it.
-/

namespace SealedDirectory.Work

variable {α β : Type}

/-- An operation succeeds with a value and leaves a session. -/
def Gives (work : Work α) (before : Session) (value : α) (after : Session) : Prop :=
  work.runIn before = (.ok value, after)

/-- An operation fails with a fault and leaves a session. -/
def Fails (work : Work α) (before : Session) (fault : Fault) (after : Session) : Prop :=
  work.runIn before = (.error fault, after)

/-! ## Sequences -/

theorem runIn_pure (value : α) (session : Session) :
    (pure value : Work α).runIn session = (.ok value, session) := rfl

theorem runIn_throw (fault : Fault) (session : Session) :
    (throw fault : Work α).runIn session = (.error fault, session) := rfl

/-- The second operation runs only in what a successful first one leaves. -/
theorem runIn_bind
    (work : Work α) (next : α → Work β) (session : Session) :
    (work >>= next).runIn session =
      match work.runIn session with
      | (.ok value, middle) => (next value).runIn middle
      | (.error fault, middle) => (.error fault, middle) := by
  have unfolded :
      (work >>= next).runIn session =
        ExceptT.bindCont next (work session).1 (work session).2 := rfl
  rw [unfolded]
  simp only [runIn]
  rcases work session with ⟨outcome, middle⟩
  cases outcome <;> rfl

@[simp]
theorem gives_pure
    {value given : α} {before after : Session} :
    Gives (pure value) before given after ↔ given = value ∧ after = before := by
  rw [Gives, runIn_pure, Prod.mk.injEq, Except.ok.injEq]
  exact and_congr eq_comm eq_comm

@[simp]
theorem gives_throw
    {fault : Fault} {value : α} {before after : Session} :
    Gives (throw fault) before value after ↔ False := by
  simp [Gives, runIn_throw]

@[simp]
theorem gives_bind
    {work : Work α} {next : α → Work β} {value : β}
    {before after : Session} :
    Gives (work >>= next) before value after ↔
      ∃ first middle, Gives work before first middle ∧
        Gives (next first) middle value after := by
  simp only [Gives, runIn_bind]
  constructor
  · intro given
    rcases ran : work.runIn before with ⟨outcome, middle⟩
    rw [ran] at given
    cases outcome with
    | error fault => simp at given
    | ok first => exact ⟨first, middle, rfl, given⟩
  · rintro ⟨first, middle, ran, rest⟩
    rw [ran]
    exact rest

theorem gives_ite
    {condition : Prop} [Decidable condition] {work other : Work α} {value : α}
    {before after : Session} :
    Gives (if condition then work else other) before value after ↔
      (condition ∧ Gives work before value after) ∨
        (¬ condition ∧ Gives other before value after) := by
  by_cases holds : condition <;> simp [holds]

/-- Two runs of an operation in one session have one outcome. -/
theorem Gives.unique
    {work : Work α} {value other : α} {before after elsewhere : Session}
    (given : Gives work before value after)
    (again : Gives work before other elsewhere) :
    value = other ∧ after = elsewhere := by
  have same := given.symm.trans again
  simpa using same

/-! ## Statements and checks -/

/-- A question is answered from the tables, and the session stays as it is. -/
theorem runIn_ask (question : Tables → Except Fault α) (session : Session) :
    (ask question).runIn session = (question session.tables, session) := by
  have looked : (get : Work Session).runIn session = (.ok session, session) := rfl
  rw [ask, runIn_bind, looked]
  dsimp only
  cases question session.tables with
  | ok answer => rfl
  | error fault => rfl

@[simp]
theorem gives_ask
    {question : Tables → Except Fault α} {value : α} {before after : Session} :
    Gives (ask question) before value after ↔
      question before.tables = .ok value ∧ after = before := by
  rw [Gives, runIn_ask, Prod.mk.injEq]
  exact and_congr_right fun _ => eq_comm

theorem runIn_answer
    (statement : Tables → Except Fault (Tables × α)) (session : Session) :
    (answer statement).runIn session =
      match statement session.tables with
      | .ok (tables, value) => (.ok value, { session with tables })
      | .error fault => (.error fault, session) := by
  have unfolded :
      (answer statement).runIn session =
        (match statement session.tables with
          | .ok (tables, value) => do
              modify fun session => { session with tables }
              return value
          | .error fault => throw fault : Work α).runIn session := by
    rw [answer, runIn_bind]
    rfl
  rw [unfolded]
  cases statement session.tables <;> rfl

@[simp]
theorem gives_answer
    {statement : Tables → Except Fault (Tables × α)} {value : α}
    {before after : Session} :
    Gives (answer statement) before value after ↔
      ∃ tables, statement before.tables = .ok (tables, value) ∧
        after = { before with tables } := by
  rw [Gives, runIn_answer]
  rcases statement before.tables with fault | ⟨tables, given⟩
  · simp
  · simp only [Prod.mk.injEq, Except.ok.injEq]
    constructor
    · rintro ⟨rfl, rfl⟩
      exact ⟨tables, ⟨rfl, rfl⟩, rfl⟩
    · rintro ⟨changed, ⟨rfl, rfl⟩, rfl⟩
      exact ⟨rfl, rfl⟩

@[simp]
theorem gives_execute
    {statement : Tables → Except Fault Tables} {value : Unit}
    {before after : Session} :
    Gives (execute statement) before value after ↔
      ∃ tables, statement before.tables = .ok tables ∧
        after = { before with tables } := by
  rw [execute, gives_answer]
  cases statement before.tables with
  | error fault => simp [Except.map]
  | ok changed => simp [Except.map]

@[simp]
theorem gives_require
    {ρ : Type} {check : Except ρ Unit} {fault : ρ → Fault} {value : Unit}
    {before after : Session} :
    Gives (require check fault) before value after ↔
      check = .ok () ∧ after = before := by
  rcases check with rule | ⟨⟩
  · simp [require]
  · simp [require]

@[simp]
theorem gives_ofExcept
    {outcome : Except Fault α} {value : α} {before after : Session} :
    Gives (ofExcept outcome) before value after ↔
      outcome = .ok value ∧ after = before := by
  cases outcome with
  | error fault => simp [ofExcept]
  | ok given => simp [ofExcept, eq_comm]

/-! ## Time, chance and numbers -/

/-- The session after a reading of the clock. -/
def afterClock (session : Session) : Session :=
  { session with drawn := { session.drawn with clock := session.drawn.clock + 1 } }

/-- The session after an identifier was drawn. -/
def afterUuid (session : Session) : Session :=
  { session with drawn := { session.drawn with uuid := session.drawn.uuid + 1 } }

/-- The session after a nonce was drawn. -/
def afterNonce (session : Session) : Session :=
  { session with drawn := { session.drawn with nonce := session.drawn.nonce + 1 } }

@[simp]
theorem gives_now
    {value : Int} {before after : Session} :
    Gives now before value after ↔
      value = (before.source.clock before.drawn.clock).seconds ∧
        after = afterClock before := by
  have unfolded :
      now.runIn before =
        (.ok (before.source.clock before.drawn.clock).seconds, afterClock before) := rfl
  rw [Gives, unfolded, Prod.mk.injEq, Except.ok.injEq]
  exact and_congr eq_comm eq_comm

@[simp]
theorem gives_freshId
    {kind : IdKind} {value : Id kind} {before after : Session} :
    Gives (freshId kind) before value after ↔
      value = ⟨before.source.uuid before.drawn.uuid⟩ ∧ after = afterUuid before := by
  have unfolded :
      (freshId kind).runIn before =
        (.ok ⟨before.source.uuid before.drawn.uuid⟩, afterUuid before) := rfl
  rw [Gives, unfolded, Prod.mk.injEq, Except.ok.injEq]
  exact and_congr eq_comm eq_comm

@[simp]
theorem gives_freshNonce
    {value : Nonce} {before after : Session} :
    Gives freshNonce before value after ↔
      value = before.source.nonce before.drawn.nonce ∧ after = afterNonce before := by
  have unfolded :
      freshNonce.runIn before =
        (.ok (before.source.nonce before.drawn.nonce), afterNonce before) := rfl
  rw [Gives, unfolded, Prod.mk.injEq, Except.ok.injEq]
  exact and_congr eq_comm eq_comm

/-- The session after the next number of a sequence was handed out. -/
def afterNumber (sequence : Sequence) (stored : Int) (session : Session) : Session :=
  let (number, marks) := session.marks.draw sequence stored
  { session with marks, handed := (sequence, number) :: session.handed }

theorem gives_nextNumber
    {sequence : Sequence} {value : Int} {before after : Session} :
    Gives (nextNumber sequence) before value after ↔
      ∃ stored, before.tables.highest sequence = .ok stored ∧
        value = max (before.marks.last sequence) stored + 1 ∧
        after = afterNumber sequence stored before := by
  rw [nextNumber, gives_bind]
  constructor
  · rintro ⟨stored, middle, asked, rest⟩
    rcases gives_ask.mp asked with ⟨known, rfl⟩
    have drawn := Gives.unique (show Gives _ _ _ (afterNumber sequence stored middle) from rfl)
      rest
    exact ⟨stored, known, drawn.1.symm, drawn.2.symm⟩
  · rintro ⟨stored, known, rfl, rfl⟩
    exact ⟨stored, before, gives_ask.mpr ⟨known, rfl⟩, rfl⟩

/-! ## Transactions -/

@[simp]
theorem tables_commit (session : Session) : (commit session).tables = session.tables := rfl

theorem runIn_transaction (work : Work α) (session : Session) :
    runIn (transaction work) session =
      match work.runIn session with
      | (.ok value, after) => (.ok value, commit after)
      | (.error fault, after) => (.error fault, rollback session.tables after) := by
  simp only [runIn, transaction]
  rcases work session with ⟨outcome, after⟩
  cases outcome <;> rfl

@[simp]
theorem gives_transaction
    {work : Work α} {value : α} {before after : Session} :
    Gives (transaction work) before value after ↔
      ∃ middle, Gives work before value middle ∧ after = commit middle := by
  simp only [Gives, runIn_transaction]
  rcases work.runIn before with ⟨outcome, middle⟩
  cases outcome with
  | error fault => simp
  | ok given => simp [and_assoc, eq_comm]

/-- A transaction fails with its work, whose changes of the tables are dropped. -/
theorem fails_transaction
    {work : Work α} {fault : Fault} {before after : Session} :
    Fails (transaction work) before fault after ↔
      ∃ middle, Fails work before fault middle ∧
        after = rollback before.tables middle := by
  simp only [Fails, runIn_transaction]
  rcases work.runIn before with ⟨outcome, middle⟩
  cases outcome with
  | error fault => simp [and_assoc, eq_comm]
  | ok given => simp

end SealedDirectory.Work
