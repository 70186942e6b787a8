import SealedDirectory.Proofs.Store.Cover
import SealedDirectory.Proofs.Work.Outcome
import Mathlib.Logic.Relation

/-!
# What an operation draws

Whatever an operation does, and whether it gives a value or fails, it goes by small steps:
it draws a number, it draws on the source, or it runs a statement that loses no number.  So
the only thing that it does to the memory of the sequences is to draw numbers.  The memory
then holds at least the greatest number that was drawn, and knows that the store may not
know of it.

An operation of the directory is also orderly: when it succeeds, every number that it has
drawn is in the store.

A transaction ends in one of three ways.  It can be refused before it begins, it can
fail and leave nothing but the memory of what it has drawn, or it can succeed.
-/

namespace SealedDirectory

/-- Between two sessions numbers were drawn, the latest first. -/
structure Session.Draws (before after : Session) (drawn : List (Sequence × Int)) :
    Prop where
  handed : after.handed = drawn ++ before.handed
  rises : ∀ sequence, before.marks.last sequence ≤ after.marks.last sequence
  covered : ∀ sequence number, (sequence, number) ∈ drawn →
    number ≤ after.marks.last sequence
  remembered : (drawn = [] ∧ after.marks = before.marks) ∨
    (drawn ≠ [] ∧ after.marks.unsaved = true)

namespace Session.Draws

variable {before middle after : Session} {first second : List (Sequence × Int)}

/-- A session with the same memory has drawn nothing. -/
theorem of_same
    (marks : after.marks = before.marks)
    (handed : after.handed = before.handed) :
    before.Draws after [] where
  handed := by simpa using handed
  rises := by
    intro sequence
    exact Int.le_of_eq (by rw [marks])
  covered := by
    intro sequence number member
    cases member
  remembered := .inl ⟨rfl, marks⟩

theorem trans
    (begins : before.Draws middle first)
    (ends : middle.Draws after second) :
    before.Draws after (second ++ first) where
  handed := by rw [ends.handed, begins.handed, List.append_assoc]
  rises := by
    intro sequence
    exact Int.le_trans (begins.rises sequence) (ends.rises sequence)
  covered := by
    intro sequence number member
    rcases List.mem_append.mp member with later | earlier
    · exact ends.covered sequence number later
    · exact Int.le_trans (begins.covered sequence number earlier) (ends.rises sequence)
  remembered := by
    rcases ends.remembered with ⟨rfl, same⟩ | ⟨some, unsaved⟩
    · rw [same]
      exact begins.remembered
    · exact .inr ⟨by simp [some], unsaved⟩

end Session.Draws

/-- The memory holds the number that was drawn last, which is the greatest one. -/
theorem Session.draws_afterNumber (sequence : Sequence) (stored : Int) (session : Session) :
    session.Draws (Work.afterNumber sequence stored session)
      [(sequence, max (session.marks.last sequence) stored + 1)] where
  handed := rfl
  rises := by
    intro other
    cases sequence <;> cases other <;>
      simp only [Work.afterNumber, Marks.draw, Marks.last] <;> omega
  covered := by
    intro other number member
    simp only [List.mem_singleton, Prod.mk.injEq] at member
    rcases member with ⟨rfl, rfl⟩
    cases other <;> simp [Work.afterNumber, Marks.draw, Marks.last]
  remembered := by
    refine .inr ⟨by simp, ?_⟩
    cases sequence <;> rfl

/-! ## Steps -/

/-- One thing that an operation does to a session. -/
inductive Session.Step (session : Session) : Session → Prop
  | drew
      (sequence : Sequence)
      {stored : Int}
      (known : session.tables.highest sequence = .ok stored) :
      Step session (Work.afterNumber sequence stored session)
  /-- Something was drawn from the source. -/
  | turned (drawn : Drawn) : Step session { session with drawn }
  | wrote
      {tables : Tables}
      (keeps : session.tables.Keeps tables) :
      Step session { session with tables }

/-- One session comes from another one by steps. -/
def Session.Reaches : Session → Session → Prop :=
  Relation.ReflTransGen Session.Step

theorem Session.Step.draws
    {before after : Session}
    (step : before.Step after) :
    ∃ drawn, before.Draws after drawn := by
  cases step with
  | drew sequence known => exact ⟨_, draws_afterNumber sequence _ before⟩
  | turned drawn => exact ⟨[], .of_same rfl rfl⟩
  | wrote keeps => exact ⟨[], .of_same rfl rfl⟩

theorem Session.Reaches.draws
    {before after : Session}
    (reaches : before.Reaches after) :
    ∃ drawn, before.Draws after drawn := by
  induction reaches with
  | refl => exact ⟨[], .of_same rfl rfl⟩
  | tail _ step ih =>
      rcases ih with ⟨earlier, begins⟩
      rcases step.draws with ⟨later, ends⟩
      exact ⟨later ++ earlier, begins.trans ends⟩

/-- Every number that was handed out is in the store. -/
def Session.Stored (session : Session) : Prop :=
  ∀ sequence number, (sequence, number) ∈ session.handed →
    session.tables.Covers sequence number

/-- One number was drawn, and then it was stored. -/
theorem Session.Stored.of_one
    {before after : Session}
    {sequence : Sequence}
    {number : Int}
    (stored : before.Stored)
    (handed : after.handed = (sequence, number) :: before.handed)
    (keeps : before.tables.Keeps after.tables)
    (covers : after.tables.Covers sequence number) :
    after.Stored := by
  intro other drawn member
  rw [handed, List.mem_cons] at member
  rcases member with same | earlier
  · cases same
    exact covers
  · exact keeps.covers other drawn (stored other drawn earlier)

namespace Work

variable {α β : Type}

/-! ## Operations that go by steps -/

/-- An operation goes by steps, whether it gives a value or fails. -/
def BySteps (work : Work α) : Prop :=
  ∀ before : Session, before.Reaches (work.runIn before).2

/-- When the operation succeeds, what it has drawn is in the store. -/
def Stores (work : Work α) : Prop :=
  ∀ before value after, work.Gives before value after → before.Stored → after.Stored

structure Orderly (work : Work α) : Prop where
  bySteps : work.BySteps
  stores : work.Stores

theorem BySteps.bind
    {work : Work α} {next : α → Work β}
    (first : work.BySteps)
    (rest : ∀ value, (next value).BySteps) :
    (work >>= next).BySteps := by
  intro before
  have begins := first before
  rw [runIn_bind]
  rcases ran : work.runIn before with ⟨outcome, middle⟩
  rw [ran] at begins
  cases outcome with
  | error fault => exact begins
  | ok value => exact begins.trans (rest value middle)

theorem Stores.bind
    {work : Work α} {next : α → Work β}
    (first : work.Stores)
    (rest : ∀ value, (next value).Stores) :
    (work >>= next).Stores := by
  intro before value after given stored
  rcases gives_bind.mp given with ⟨begun, middle, begins, ends⟩
  exact rest begun middle value after ends (first before begun middle begins stored)

theorem bySteps_nextNumber (sequence : Sequence) : (nextNumber sequence).BySteps := by
  intro before
  rw [nextNumber, runIn_bind, runIn_ask]
  cases known : before.tables.highest sequence with
  | error fault => exact .refl
  | ok stored => exact .single (.drew sequence known)

/-- Draws a number of each of these sequences, in this order. -/
def drawAll : List Sequence → Work Unit
  | [] => return
  | sequence :: rest => do
      let _ ← nextNumber sequence
      drawAll rest

theorem bySteps_drawAll (sequences : List Sequence) : (drawAll sequences).BySteps := by
  induction sequences with
  | nil => exact fun _ => .refl
  | cons sequence rest ih => exact (bySteps_nextNumber sequence).bind fun _ => ih

namespace Orderly

theorem bind
    {work : Work α} {next : α → Work β}
    (first : work.Orderly)
    (rest : ∀ value, (next value).Orderly) :
    (work >>= next).Orderly where
  bySteps := first.bySteps.bind fun value => (rest value).bySteps
  stores := first.stores.bind fun value => (rest value).stores

theorem ite
    {condition : Prop} [Decidable condition] {work other : Work α}
    (first : work.Orderly)
    (second : other.Orderly) :
    (if condition then work else other).Orderly := by
  split
  · exact first
  · exact second

/-- An operation that does nothing but draw from the source is orderly. -/
theorem of_turned
    {work : Work α}
    (turned : ∀ before, ∃ drawn, (work.runIn before).2 = { before with drawn }) :
    work.Orderly where
  bySteps := by
    intro before
    rcases turned before with ⟨drawn, same⟩
    rw [same]
    exact .single (.turned drawn)
  stores := by
    intro before value after given stored
    rcases turned before with ⟨drawn, same⟩
    rw [given] at same
    cases same
    exact stored

end Orderly

theorem orderly_pure (value : α) : Orderly (pure value : Work α) :=
  .of_turned fun before => ⟨before.drawn, rfl⟩

theorem orderly_throw (fault : Fault) : Orderly (throw fault : Work α) :=
  .of_turned fun before => ⟨before.drawn, rfl⟩

theorem orderly_ask (question : Tables → Except Fault α) : (ask question).Orderly :=
  .of_turned fun before => ⟨before.drawn, by rw [runIn_ask]⟩

theorem orderly_now : now.Orderly :=
  .of_turned fun _ => ⟨_, rfl⟩

theorem orderly_freshId (kind : IdKind) : (freshId kind).Orderly :=
  .of_turned fun _ => ⟨_, rfl⟩

theorem orderly_freshNonce : freshNonce.Orderly :=
  .of_turned fun _ => ⟨_, rfl⟩

theorem orderly_require
    {ρ : Type} (check : Except ρ Unit) (fault : ρ → Fault) :
    (require check fault).Orderly := by
  rcases check with rule | ⟨⟩
  · exact orderly_throw _
  · exact orderly_pure _

/-- A statement that keeps what the store covers is orderly. -/
theorem orderly_answer
    {statement : Tables → Except Fault (Tables × α)}
    (keeps : ∀ before after value, statement before = .ok (after, value) → before.Keeps after) :
    (answer statement).Orderly where
  bySteps := by
    intro before
    rw [runIn_answer]
    cases stated : statement before.tables with
    | error fault => exact .refl
    | ok result => exact .single (.wrote (keeps _ _ _ stated))
  stores := by
    intro before value after given stored
    rcases gives_answer.mp given with ⟨tables, stated, rfl⟩
    intro sequence number handed
    exact (keeps _ _ _ stated).covers sequence number (stored sequence number handed)

theorem orderly_execute
    {statement : Tables → Except Fault Tables}
    (keeps : ∀ before after, statement before = .ok after → before.Keeps after) :
    (execute statement).Orderly := by
  apply orderly_answer
  intro before after value given
  cases stated : statement before with
  | error fault =>
      rw [stated] at given
      cases given
  | ok changed =>
      rw [stated] at given
      cases given
      exact keeps before _ stated

theorem Orderly.mapM
    {f : α → Work β} (each : ∀ item, (f item).Orderly) (items : List α) :
    (items.mapM f).Orderly := by
  induction items with
  | nil => exact orderly_pure []
  | cons item items ih =>
      rw [List.mapM_cons]
      exact (each item).bind fun _ => ih.bind fun _ => orderly_pure _

/-! ## Transactions -/

/-- An operation that is all or nothing. -/
inductive Ends (work : Work α) (before : Session) : Prop
  | refused {fault : Fault} (fails : work.Fails before fault before)
  /-- It fails and leaves the memory of what it has drawn. -/
  | failed {fault : Fault} {middle : Session}
      (reaches : before.Reaches middle)
      (fails : work.Fails before fault (rollback before.tables middle))
  | succeeded {value : α} {middle : Session}
      (reaches : before.Reaches middle)
      (stores : before.Stored → middle.Stored)
      (gives : work.Gives before value (commit middle))

theorem Orderly.ends_transaction
    {work : Work α} (orderly : work.Orderly) (before : Session) :
    Ends (transaction work : Work α) before := by
  have reaches := orderly.bySteps before
  rcases ran : work.runIn before with ⟨outcome, middle⟩
  rw [ran] at reaches
  cases outcome with
  | error fault => exact .failed reaches (fails_transaction.mpr ⟨middle, ran, rfl⟩)
  | ok value =>
      exact .succeeded reaches (orderly.stores before value middle ran)
        (gives_transaction.mpr ⟨middle, ran, rfl⟩)

theorem Ends.require
    {ρ : Type} {check : Except ρ Unit} {fault : ρ → Fault} {work : Work α} {before : Session}
    (ends : work.Ends before) :
    Ends (do Work.require check fault; work) before := by
  rcases check with rule | ⟨⟩
  · exact .refused rfl
  · exact ends

theorem Ends.map
    {work : Work α} {wrap : α → β} {before : Session}
    (ends : work.Ends before) :
    Ends (do return wrap (← work)) before := by
  cases ends with
  | refused fails =>
      apply Ends.refused
      rw [Fails, runIn_bind, fails]
  | failed reaches fails =>
      apply Ends.failed reaches
      rw [Fails, runIn_bind, fails]
  | succeeded reaches stores gives =>
      apply Ends.succeeded reaches stores
      exact gives_bind.mpr ⟨_, _, gives, gives_pure.mpr ⟨rfl, rfl⟩⟩

end Work

end SealedDirectory
