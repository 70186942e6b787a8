import SealedDirectory.Proofs.Directory.Rising
import SealedDirectory.Proofs.Directory.Founding

/-!
# Numbers that lapse

After a transaction that failed, the memory of the process is written into the stored marks
by two statements of their own, and either of them can fail as well.  A number that was drawn
then lapses: no row holds it, no mark reaches it, and only the process that drew it knows.
The process remembers that there is something to save, and tries again after the next
transaction that fails.

A commit makes it forget.  Every number is then taken to be in the rows, which is true of what
the transaction itself has drawn, but not of what has lapsed before.  So it happens that
nothing is left to be saved, that the memory of the process is nevertheless ahead of the
store, and that the next process hands out a number for the second time.  What holds instead
is shown here: it cannot happen if every transaction that is committed draws from those
sequences in which numbers have lapsed, for what it draws is above them.
-/

namespace SealedDirectory

/-! ## Marks that are saved in part -/

/-- How far a process comes with writing both marks. -/
inductive Saving where
  | whole
  /-- The second statement fails. -/
  | entityOnly
  /-- The first statement fails, so the second one is not tried. -/
  | nothing
  deriving DecidableEq, Repr

/-- Writes the marks as far as it goes; what is not finished remains to be done. -/
def Marks.saveUpTo
    (saving : Saving)
    (marks : Marks)
    (tables : Tables) :
    Tables × Marks :=
  match saving with
  | .whole => marks.save tables
  | .entityOnly =>
      (if marks.unsaved then tables.raiseMark .entity marks.entity else tables, marks)
  | .nothing => (tables, marks)

namespace Work

variable {α : Type} {tables : Tables} {session : Session} {saving : Saving}

/-- Ends a transaction that failed, and saves the marks as far as it goes. -/
def rollbackUpTo
    (saving : Saving)
    (before : Tables)
    (session : Session) :
    Session :=
  let (tables, marks) := session.marks.saveUpTo saving before
  { session with tables, marks }

theorem rollbackUpTo_whole : rollbackUpTo .whole = rollback := rfl

/-- Runs something as one transaction, and if it fails saves the marks as far as it goes. -/
def transactionUpTo
    (saving : Saving)
    (work : Work α) :
    Work α :=
  fun session =>
    match work session with
    | (.ok value, after) => (.ok value, commit after)
    | (.error fault, after) => (.error fault, rollbackUpTo saving session.tables after)

theorem transactionUpTo_whole (work : Work α) :
    transactionUpTo .whole work = transaction work := by
  funext session
  rw [transactionUpTo, transaction]
  rcases work session with ⟨fault | value, after⟩ <;> rfl

theorem keeps_rollbackUpTo
    (saving : Saving)
    (tables : Tables)
    (session : Session) :
    tables.Keeps (rollbackUpTo saving tables session).tables := by
  have entity := Tables.keeps_raiseMark tables .entity session.marks.entity
  cases saving with
  | whole =>
      cases unsaved : session.marks.unsaved with
      | false =>
          rw [rollbackUpTo_whole, rollback_of_saved unsaved]
          exact .refl _
      | true =>
          rw [rollbackUpTo_whole, rollback_of_unsaved unsaved]
          exact entity.trans (Tables.keeps_raiseMark _ _ _)
  | entityOnly =>
      dsimp only [rollbackUpTo, Marks.saveUpTo]
      split
      · exact entity
      · exact .refl _
  | nothing => exact .refl _

/-- What the process remembers to have drawn is left alone. -/
theorem last_rollbackUpTo
    (saving : Saving)
    (tables : Tables)
    (session : Session)
    (sequence : Sequence) :
    (rollbackUpTo saving tables session).marks.last sequence = session.marks.last sequence := by
  cases saving with
  | whole =>
      cases unsaved : session.marks.unsaved with
      | false => rw [rollbackUpTo_whole, rollback_of_saved unsaved]
      | true =>
          rw [rollbackUpTo_whole, rollback_of_unsaved unsaved]
          cases sequence <;> rfl
  | entityOnly | nothing => rfl

/-- If something was to be saved and nothing is left to be, then both marks were raised. -/
theorem rollbackUpTo_of_unsaved
    (unsaved : session.marks.unsaved = true)
    (clear : (rollbackUpTo saving tables session).marks.unsaved = false) :
    (rollbackUpTo saving tables session).tables =
      (tables.raiseMark .entity session.marks.entity).raiseMark .trail session.marks.trail := by
  cases saving with
  | whole => rw [rollbackUpTo_whole, rollback_of_unsaved unsaved]
  | entityOnly | nothing => exact absurd (clear.symm.trans unsaved) Bool.false_ne_true

end Work

/-! ## Turns of a store -/

namespace Session

/-- A number was handed out in a sequence that the store does not know of. -/
def Lapsed
    (session : Session)
    (sequence : Sequence) :
    Prop :=
  ∃ number, (sequence, number) ∈ session.handed ∧ ¬ session.tables.Covers sequence number

/-- Between two sessions a number was drawn. -/
def DrewAnew
    (before after : Session)
    (sequence : Sequence)
    (number : Int) :
    Prop :=
  (sequence, number) ∈ after.handed ∧ (sequence, number) ∉ before.handed

/-- The store knows of every number that was drawn between two sessions. -/
def Carries (before after : Session) : Prop :=
  ∀ sequence number, before.DrewAnew after sequence number →
    after.tables.Covers sequence number

/-- A number is drawn from every sequence in which numbers have lapsed. -/
def Redeems (before after : Session) : Prop :=
  ∀ sequence, before.Lapsed sequence → ∃ number, before.DrewAnew after sequence number

/--
One transaction, or another process that opens the store when nothing is left to be saved.
What is committed carries the numbers that it has drawn, and may have to mind what has lapsed.
-/
inductive Turns
    (minds : Session → Session → Prop)
    (before : Session) :
    Session → Prop
  | commits {middle : Session}
      (reaches : before.Reaches middle)
      (carries : before.Carries middle)
      (minded : minds before middle) :
      Turns minds before (Work.commit middle)
  | givesUp {middle : Session}
      (reaches : before.Reaches middle)
      (saving : Saving) :
      Turns minds before (Work.rollbackUpTo saving before.tables middle)
  | reopens
      (saved : before.marks.unsaved = false) :
      Turns minds before before.reopened

/-- Some turns of a store, one after the other. -/
def Goes (minds : Session → Session → Prop) : Session → Session → Prop :=
  Relation.ReflTransGen (Turns minds)

/-- A transaction is a turn if what it commits carries the numbers that it has drawn. -/
theorem turns_transactionUpTo
    {α : Type}
    {minds : Session → Session → Prop}
    {work : Work α}
    (saving : Saving)
    {before : Session}
    (bySteps : work.BySteps)
    (carries : ∀ value middle, work.Gives before value middle → before.Carries middle)
    (minded : ∀ value middle, work.Gives before value middle → minds before middle) :
    before.Turns minds ((Work.transactionUpTo saving work).runIn before).2 := by
  have reaches := bySteps before
  rcases ran : work.runIn before with ⟨fault | value, middle⟩
  · have ends : ((Work.transactionUpTo saving work).runIn before).2 =
        Work.rollbackUpTo saving before.tables middle := by
      simp only [Work.runIn] at ran
      simp only [Work.runIn, Work.transactionUpTo, ran]
    rw [ran] at reaches
    rw [ends]
    exact .givesUp reaches saving
  · have ends : ((Work.transactionUpTo saving work).runIn before).2 = Work.commit middle := by
      simp only [Work.runIn] at ran
      simp only [Work.runIn, Work.transactionUpTo, ran]
    rw [ran] at reaches
    rw [ends]
    exact .commits reaches (carries value middle ran) (minded value middle ran)

/-! ## What every turn keeps -/

/-- The process remembers a number that was handed out, or none. -/
def Remembers (session : Session) : Prop :=
  ∀ sequence, session.marks.last sequence = 0 ∨
    (sequence, session.marks.last sequence) ∈ session.handed

variable {before middle : Session}

theorem Step.remembers
    (step : before.Step middle)
    (remembers : before.Remembers) :
    middle.Remembers := by
  cases step with
  | @drew sequence stored known =>
      intro other
      by_cases same : other = sequence
      · subst same
        refine .inr ?_
        cases other <;> exact List.mem_cons_self ..
      · have kept : (Work.afterNumber sequence stored before).marks.last other =
            before.marks.last other := by
          cases sequence <;> cases other <;> first | rfl | exact absurd rfl same
        rw [kept]
        exact (remembers other).imp_right (List.mem_cons_of_mem _)
  | turned drawn => exact remembers
  | wrote keeps => exact remembers

theorem Reaches.remembers
    (reaches : before.Reaches middle)
    (remembers : before.Remembers) :
    middle.Remembers := by
  induction reaches with
  | refl => exact remembers
  | tail _ step ih => exact step.remembers ih

theorem Reaches.keeps (reaches : before.Reaches middle) :
    before.tables.Keeps middle.tables := by
  induction reaches with
  | refl => exact .refl _
  | tail _ step ih =>
      cases step with
      | drew sequence known => exact ih
      | turned drawn => exact ih
      | wrote keeps => exact ih.trans keeps

/-- What is drawn anew is above all that was handed out before. -/
theorem Reaches.lt_of_drewAnew
    {sequence : Sequence}
    {number anew : Int}
    (reaches : before.Reaches middle)
    (rising : middle.Rising)
    (earlier : (sequence, number) ∈ before.handed)
    (drew : before.DrewAnew middle sequence anew) :
    number < anew := by
  rcases reaches.draws with ⟨drawn, draws⟩
  have later : (sequence, anew) ∈ drawn := by
    have member := drew.1
    rw [draws.handed] at member
    exact (List.mem_append.mp member).resolve_right drew.2
  rw [Rising, draws.handed, List.pairwise_append] at rising
  exact rising.2.2 _ later _ earlier rfl

/--
The process is ahead of every number that was handed out, and if nothing is left to be saved,
then the store is.
-/
structure Burns (session : Session) : Prop where
  ahead : session.Ahead
  remembers : session.Remembers
  stored : session.marks.unsaved = false → session.Stored

namespace Burns

theorem founded (source : Source) : (founded source).Burns where
  ahead := {
    numbered := (sound_founded source).numbered
    rising := .nil
    known := fun _ _ handed => by cases handed }
  remembers := fun sequence => by cases sequence <;> exact .inl rfl
  stored := fun _ _ _ handed => by cases handed

/-- A commit leaves nothing lapsed if it draws from the sequences in which something was. -/
theorem commit
    (burns : before.Burns)
    (reaches : before.Reaches middle)
    (carries : before.Carries middle)
    (redeems : before.Redeems middle) :
    (Work.commit middle).Burns := by
  have ahead := reaches.ahead burns.ahead
  have last (sequence : Sequence) :
      (Work.commit middle).marks.last sequence = middle.marks.last sequence := by
    cases sequence <;> rfl
  have stored : middle.Stored := by
    intro sequence number handed
    by_cases earlier : (sequence, number) ∈ before.handed
    · by_cases covers : before.tables.Covers sequence number
      · exact reaches.keeps.covers sequence number covers
      · -- The number has lapsed, so a higher one was drawn, and that one is carried.
        rcases redeems sequence ⟨number, earlier, covers⟩ with ⟨anew, drew⟩
        have below := reaches.lt_of_drewAnew ahead.rising earlier drew
        exact (carries sequence anew drew).of_le (Int.le_of_lt below)
    · exact carries sequence number ⟨handed, earlier⟩
  refine ⟨⟨ahead.numbered, ahead.rising, ?_⟩, ?_, fun _ => stored⟩
  · intro sequence number handed
    rw [last]
    exact ahead.known sequence number handed
  · intro sequence
    rw [last]
    exact reaches.remembers burns.remembers sequence

/-- A transaction that is given up leaves nothing lapsed unless something is left to be saved. -/
theorem rollback
    (burns : before.Burns)
    (reaches : before.Reaches middle)
    (saving : Saving) :
    (Work.rollbackUpTo saving before.tables middle).Burns := by
  have ahead := reaches.ahead burns.ahead
  have keeps := Work.keeps_rollbackUpTo saving before.tables middle
  have last := Work.last_rollbackUpTo saving before.tables middle
  rcases reaches.draws with ⟨drawn, draws⟩
  -- What the transaction wrote is gone, but the memory still reaches all that was drawn.
  have known : ∀ sequence number, (sequence, number) ∈ middle.handed →
      before.tables.Covers sequence number ∨ number ≤ middle.marks.last sequence := by
    intro sequence number handed
    rw [draws.handed] at handed
    rcases List.mem_append.mp handed with new | earlier
    · exact .inr (draws.covered sequence number new)
    · exact (burns.ahead.known sequence number earlier).imp_right fun below =>
        Int.le_trans below (draws.rises sequence)
  refine ⟨⟨keeps.numbered burns.ahead.numbered, ahead.rising, ?_⟩, ?_, ?_⟩
  · intro sequence number handed
    rw [last]
    exact (known sequence number handed).imp_left (keeps.covers sequence number)
  · intro sequence
    rw [last]
    exact reaches.remembers burns.remembers sequence
  · intro clear sequence number handed
    have earlier : (sequence, number) ∈ middle.handed := handed
    cases unsaved : middle.marks.unsaved with
    | true =>
        have marked := (Tables.numbered_iff.mp burns.ahead.numbered).2.2
        have covers := Tables.covers_raiseBoth marked middle.marks sequence
        rcases known sequence number earlier with stored | below
        · exact keeps.covers sequence number stored
        · rw [Work.rollbackUpTo_of_unsaved unsaved clear]
          exact covers.of_le below
    | false =>
        rcases draws.remembered with ⟨rfl, same⟩ | ⟨-, some⟩
        · rw [same] at unsaved
          have old : (sequence, number) ∈ before.handed := by
            simpa [draws.handed] using earlier
          exact keeps.covers sequence number (burns.stored unsaved sequence number old)
        · cases unsaved.symm.trans some

/-- A process that opens the store remembers nothing, and need not. -/
theorem reopened
    (burns : before.Burns)
    (saved : before.marks.unsaved = false) :
    before.reopened.Burns := by
  have keeps := Tables.keeps_founded before.tables
  have stored : before.reopened.Stored := fun sequence number handed =>
    keeps.covers sequence number (burns.stored saved sequence number handed)
  refine ⟨⟨keeps.numbered burns.ahead.numbered, burns.ahead.rising, ?_⟩, ?_, fun _ => stored⟩
  · exact fun sequence number handed => .inl (stored sequence number handed)
  · intro sequence
    cases sequence <;> exact .inl rfl

theorem turn
    (burns : before.Burns)
    {after : Session}
    (turns : before.Turns Redeems after) :
    after.Burns := by
  cases turns with
  | commits reaches carries redeems => exact burns.commit reaches carries redeems
  | givesUp reaches saving => exact burns.rollback reaches saving
  | reopens saved => exact burns.reopened saved

theorem goes
    (burns : before.Burns)
    {after : Session}
    (goes : Goes Redeems before after) :
    after.Burns := by
  induction goes with
  | refl => exact burns
  | tail _ turns ih => exact ih.turn turns

end Burns

end Session

/-! ## What a commit forgets -/

namespace Tables

variable {tables : Tables} {sequence : Sequence} {number top : Int}

/-- Up to the greatest number that it knows a store covers all numbers above zero. -/
theorem Knows.covers
    (knows : tables.Knows sequence top)
    (positive : 0 < number)
    (below : number ≤ top) :
    tables.Covers sequence number := by
  rcases knows.attained with ⟨cells, inTables, member⟩ | ⟨-, rfl⟩
  · have marked (found : .holds top ∈ (tables.marks.filter fun mark =>
        mark.name = .holds sequence.name).map MarkRow.value) :
        tables.Covers sequence number := by
      rcases List.mem_map.mp found with ⟨mark, chosen, holds⟩
      rw [List.mem_filter, decide_eq_true_eq] at chosen
      exact .mark chosen.1 chosen.2 holds below
    cases sequence with
    | entity =>
        simp only [usedNumbers, List.mem_cons, List.not_mem_nil, or_false] at inTables
        rcases inTables with rfl | rfl | rfl
        · rcases List.mem_map.mp member with ⟨row, stored, holds⟩
          exact @Covers.row _ .org row _ _ stored holds below
        · rcases List.mem_map.mp member with ⟨row, stored, holds⟩
          exact @Covers.row _ .user row _ _ stored holds below
        · exact marked member
    | trail =>
        simp only [usedNumbers, List.mem_cons, List.not_mem_nil, or_false] at inTables
        rcases inTables with rfl | rfl
        · rcases List.mem_map.mp member with ⟨row, stored, holds⟩
          exact .entry stored holds below
        · exact marked member
  · omega

theorem highest_founded (tables : Tables) (sequence : Sequence) :
    tables.founded.highest sequence = tables.highest sequence := by
  rw [founded]
  split <;> rfl

end Tables

/--
If numbers have lapsed when a transaction is committed, nothing is left to be saved all the
same, and the next process hands out no higher number than one of them.
-/
theorem Session.commit_forgets_what_lapsed
    {session : Session}
    {sequence : Sequence}
    (numbered : session.tables.Numbered)
    (positive : ∀ number, (sequence, number) ∈ session.handed → 0 < number)
    (lapsed : session.Lapsed sequence) :
    (Work.commit session).marks.unsaved = false ∧
      ∃ value later, (Work.nextNumber sequence).Gives (Work.commit session).reopened value later ∧
        ∃ number, (sequence, number) ∈ session.handed ∧ value ≤ number := by
  rcases lapsed with ⟨number, handed, uncovered⟩
  rcases numbered.knows sequence with ⟨top, knows⟩
  have above : top < number :=
    Int.not_le.mp fun below => uncovered (knows.covers (positive number handed) below)
  have asked : (Work.commit session).reopened.tables.highest sequence = .ok top :=
    (Tables.highest_founded session.tables sequence).trans knows.found
  have forgotten : (Work.commit session).reopened.marks.last sequence = 0 := by
    cases sequence <;> rfl
  refine ⟨rfl, _, _, Work.gives_nextNumber.mpr ⟨top, asked, rfl, rfl⟩, number, handed, ?_⟩
  have bound := positive number handed
  rw [forgotten]
  omega

namespace Sample

/-- Notes an entry at the next place in the trail. -/
def noting : Work Unit := do
  let order ← Work.nextNumber .trail
  Work.execute fun tables => tables.insertEntry
    { kind := .org, entity := "", column := "", oldTime := 0, newTime := 0,
      oldSignature := ⟨.ofRandom []⟩, newSignature := ⟨.ofRandom [1]⟩,
      details := ⟨.null, .null⟩, order, time := 0 }

/-- A number is drawn by a transaction that is given up, and then no mark can be written. -/
def lapsing (sequence : Sequence) : Session :=
  ((Work.transactionUpTo .nothing (do
    Work.drawAll [sequence]
    throw .digestMismatch : Work Unit)).runIn (Session.founded source)).2

/-- Then an entry is noted and committed. -/
def noted (sequence : Sequence) : Session :=
  ((Work.transactionUpTo .whole noting).runIn (lapsing sequence)).2

theorem goes_noted
    {minds : Session → Session → Prop}
    (sequence : Sequence)
    (minded : ∀ value middle, noting.Gives (lapsing sequence) value middle →
      minds (lapsing sequence) middle) :
    Session.Goes minds (Session.founded source) (noted sequence) := by
  have first : (Session.founded source).Turns minds (lapsing sequence) := by
    have fails : ∀ value middle,
        ¬ (do Work.drawAll [sequence]; throw .digestMismatch : Work Unit).Gives
          (Session.founded source) value middle := by
      intro value middle given
      simp only [Work.gives_bind, Work.gives_throw, and_false, exists_false] at given
    apply Session.turns_transactionUpTo
    · exact (Work.bySteps_drawAll _).bind fun _ => (Work.orderly_throw _).bySteps
    · exact fun value middle given => absurd given (fails value middle)
    · exact fun value middle given => absurd given (fails value middle)
  have second : (lapsing sequence).Turns minds (noted sequence) := by
    apply Session.turns_transactionUpTo
    · exact (Work.bySteps_nextNumber _).bind fun _ =>
        (Work.orderly_execute fun _ _ => Tables.Keeps.insertEntry).bySteps
    · intro value middle given sequence number drew
      simp only [noting, Work.gives_bind, Work.gives_nextNumber, Work.gives_execute] at given
      obtain ⟨order, _, ⟨stored, asked, rfl, rfl⟩, tables, inserted, rfl⟩ := given
      rcases List.mem_cons.mp drew.1 with same | earlier
      · cases same
        exact Tables.covers_insertEntry inserted
      · exact absurd earlier drew.2
    · exact minded
  exact .tail (.single first) second

/-- An entry that is noted redeems what has lapsed in the trail. -/
theorem redeems_noting
    {value : Unit}
    {middle : Session}
    (given : noting.Gives (lapsing .trail) value middle) :
    (lapsing .trail).Redeems middle := by
  have handed : (lapsing .trail).handed = [(.trail, 1)] := by decide +kernel
  have last : (lapsing .trail).marks.last .trail = 1 := by decide +kernel
  simp only [noting, Work.gives_bind, Work.gives_nextNumber, Work.gives_execute] at given
  obtain ⟨order, _, ⟨stored, asked, rfl, rfl⟩, tables, -, rfl⟩ := given
  rintro sequence ⟨number, lapsed, -⟩
  rw [handed, List.mem_singleton] at lapsed
  cases lapsed
  refine ⟨_, List.mem_cons_self .., ?_⟩
  rw [handed, last, List.mem_singleton, Prod.mk.injEq]
  rintro ⟨-, same⟩
  omega

end Sample

/--
A number for a record is drawn by a transaction that is given up, and no mark can be written.
An entry is committed, with which nothing is left to be saved, although the memory of the
process is ahead of the store.  The next process hands out the same number again.
-/
theorem lapsed_number_is_handed_out_again :
    ∃ session,
      Session.Goes (fun _ _ => True) (Session.founded Sample.source) session ∧
      session.marks.unsaved = false ∧
      (∃ top, session.tables.highest .entity = .ok top ∧ top < session.marks.last .entity) ∧
      ∃ number later, (.entity, number) ∈ session.handed ∧
        (Work.nextNumber .entity).Gives session.reopened number later := by
  have goes : Session.Goes (fun _ _ => True) (Session.founded Sample.source)
      (Sample.noted .entity) :=
    Sample.goes_noted .entity fun _ _ _ => trivial
  have asked : (Sample.noted .entity).tables.highest .entity = .ok 0 := by decide +kernel
  have again : (Work.nextNumber .entity).Gives (Sample.noted .entity).reopened 1
      (Work.afterNumber .entity 0 (Sample.noted .entity).reopened) :=
    Work.gives_nextNumber.mpr ⟨0, by decide +kernel, by decide +kernel, rfl⟩
  exact ⟨_, goes, by decide +kernel, ⟨0, asked, by decide +kernel⟩, 1, _, by decide +kernel, again⟩

/-! ## The main statement -/

/--
Let transactions follow each other on a store, each of which either is committed with all the
numbers that it has drawn or is given up, and then the marks are saved as far as it goes; let
those that are committed draw from the sequences in which numbers have lapsed.  Whenever
nothing is left to be saved, the store knows every number that was handed out and the one
that the process remembers, if it has drawn any; and the next process draws a higher one.
-/
theorem numbers_stay_burned_if_commits_redeem_what_lapsed
    (source : Source)
    {session : Session}
    (goes : Session.Goes Session.Redeems (.founded source) session)
    (saved : session.marks.unsaved = false)
    (sequence : Sequence) :
    (∃ top, session.tables.highest sequence = .ok top ∧
      (session.marks.last sequence = 0 ∨ session.marks.last sequence ≤ top) ∧
      ∀ number, (sequence, number) ∈ session.handed → number ≤ top) ∧
    ∃ value later, (Work.nextNumber sequence).Gives session.reopened value later ∧
      ∀ number, (sequence, number) ∈ session.handed → number < value := by
  have burns := (Session.Burns.founded source).goes goes
  have stored := burns.stored saved sequence
  constructor
  · rcases burns.ahead.numbered.knows sequence with ⟨top, knows⟩
    have reaches : ∀ number, (sequence, number) ∈ session.handed → number ≤ top :=
      fun number handed => (stored number handed).le knows
    exact ⟨top, knows.found, (burns.remembers sequence).imp_right (reaches _), reaches⟩
  · have fresh := burns.reopened saved
    rcases fresh.ahead.numbered.knows sequence with ⟨top, knows⟩
    refine ⟨_, _, Work.gives_nextNumber.mpr ⟨top, knows.found, rfl, rfl⟩, ?_⟩
    intro number handed
    have below := (fresh.stored rfl sequence number handed).le knows
    omega

/-- An entry that is noted after a number of the trail has lapsed keeps it from coming again. -/
theorem lapsed_number_of_the_trail_is_redeemed :
    ∃ session,
      Session.Goes Session.Redeems (Session.founded Sample.source) session ∧
      session.marks.unsaved = false ∧
      session.handed = [(.trail, 2), (.trail, 1)] ∧
      ∃ value later, (Work.nextNumber .trail).Gives session.reopened value later ∧ 2 < value := by
  have goes : Session.Goes Session.Redeems (Session.founded Sample.source)
      (Sample.noted .trail) :=
    Sample.goes_noted .trail fun _ _ => Sample.redeems_noting
  have saved : (Sample.noted .trail).marks.unsaved = false := by decide +kernel
  have handed : (Sample.noted .trail).handed = [(.trail, 2), (.trail, 1)] := by decide +kernel
  rcases (numbers_stay_burned_if_commits_redeem_what_lapsed Sample.source goes saved .trail).2 with
    ⟨value, later, given, above⟩
  refine ⟨_, goes, saved, handed, value, later, given, above 2 ?_⟩
  rw [handed]
  exact List.mem_cons_self ..

end SealedDirectory
