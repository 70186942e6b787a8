import SealedDirectory.Proofs.Directory.Failure
import SealedDirectory.Proofs.Directory.Rekeying
import SealedDirectory.Proofs.Trail.Refusal

/-!
# The trail has no gaps

The entries of the trail are numbered from one on, and no number is left out.  Places of
organizations and users are lost with every request that fails after it has drawn some, and
with the trail they share the memory of the process and the stored marks.  But a number of
the trail is drawn only to note a change, which is the last that is done about it, and
noting does not fail.  So a request that fails has drawn no number of the trail, and the
mark that is raised then is not raised beyond the entries.
-/

namespace SealedDirectory

open Tables

/-! ## Trails without gaps -/

/-- No mark of the trail is above a number. -/
def Tables.TrailMarkedUpTo
    (tables : Tables)
    (bound : Int) :
    Prop :=
  ∀ mark ∈ tables.marks, mark.name = .holds Sequence.trail.name →
    ∀ value, mark.value = .holds value → value ≤ bound

namespace Session

/-- The entries are numbered from one on, and no number beyond them was drawn. -/
structure Gapless (session : Session) : Prop where
  orders : session.tables.trail.map EntryRow.order =
    (List.range session.tables.trail.length).map fun index : Nat => .holds (index + 1)
  marked : session.tables.TrailMarkedUpTo session.tables.trail.length
  last : session.marks.last .trail ≤ session.tables.trail.length

/-- Nothing on which the next number of the trail depends has changed. -/
structure SameTrail (before after : Session) : Prop where
  trail : after.tables.trail = before.tables.trail
  marks : after.tables.marks = before.tables.marks
  last : after.marks.last .trail = before.marks.last .trail

variable {session before after : Session}

namespace Gapless

theorem of_same
    (gapless : before.Gapless)
    (same : before.SameTrail after) :
    after.Gapless where
  orders := by
    rw [same.trail]
    exact gapless.orders
  marked := by
    rw [TrailMarkedUpTo, same.marks, same.trail]
    exact gapless.marked
  last := by
    rw [same.last, same.trail]
    exact gapless.last

/-- The store knows as many numbers of the trail as there are entries. -/
theorem knows
    (gapless : session.Gapless)
    (numbered : session.tables.Numbered) :
    session.tables.Knows .trail session.tables.trail.length := by
  rcases numbered.knows .trail with ⟨top, knows⟩
  have listed : session.tables.trail.map EntryRow.order ∈ session.tables.usedNumbers .trail :=
    mem_usedNumbers_trail.mpr (.inl rfl)
  have atMost : top ≤ session.tables.trail.length := by
    rcases knows.attained with ⟨cells, among, holds⟩ | ⟨-, rfl⟩
    · rcases mem_usedNumbers_trail.mp among with rfl | rfl
      · rw [gapless.orders] at holds
        rcases List.mem_map.mp holds with ⟨index, below, same⟩
        have order := Cell.holds.inj same
        have bound := List.mem_range.mp below
        omega
      · rcases List.mem_map.mp holds with ⟨mark, marked, same⟩
        rcases List.mem_filter.mp marked with ⟨member, named⟩
        exact gapless.marked mark member (of_decide_eq_true named) top same
    · omega
  have atLeast : session.tables.trail.length ≤ top := by
    rcases Nat.eq_zero_or_pos session.tables.trail.length with none | some
    · have untouched : session.tables.Untouched .trail := by
        rw [List.length_eq_zero_iff.mp none] at listed
        exact listed
      have natural := knows.natural untouched
      omega
    · apply knows.above _ listed
      rw [gapless.orders]
      refine List.mem_map.mpr
        ⟨session.tables.trail.length - 1, List.mem_range.mpr (by omega), ?_⟩
      exact congrArg Cell.holds (by omega)
  have same : top = session.tables.trail.length := by omega
  rwa [same] at knows

end Gapless

end Session

/-! ## Noting without a gap -/

namespace Work

section

variable
  {R : Type}
  [Versioned R]
  {before after : R}
  {time : Int}
  {session later : Session}

/-- One entry gets the number that follows the number of entries. -/
theorem noteChange_gapless
    {change : String × Details}
    {entry : Entry}
    (gapless : session.Gapless)
    (numbered : session.tables.Numbered)
    (given : (noteChange before after time change).Gives session entry later) :
    later.Gapless ∧ entry.order = session.tables.trail.length + 1 ∧
      later.tables = session.tables.noting [entry] ∧ later.tables.Numbered := by
  obtain ⟨-, -, order, last, tables, numberedThen, -⟩ :=
    noteChange_gives numbered (gapless.knows numbered) given
  rw [Int.max_eq_right gapless.last] at order
  have trail : later.tables.trail = session.tables.trail ++ [EntryRow.ofEntry entry] := by
    rw [tables]
    rfl
  have length : later.tables.trail.length = session.tables.trail.length + 1 := by
    rw [trail, List.length_append, List.length_singleton]
  refine ⟨⟨?_, ?_, ?_⟩, order, tables, numberedThen⟩
  · rw [length, List.range_succ, List.map_append, ← gapless.orders, trail, List.map_append,
      List.map_singleton, List.map_singleton, EntryRow.ofEntry, order]
  · intro mark member named value holds
    rw [tables] at member
    have bound := gapless.marked mark member named value holds
    omega
  · rw [last, order, length]
    omega

/-- Several changes are noted under numbers that follow each other. -/
theorem mapM_noteChange_gapless
    {changes : List (String × Details)}
    {entries : List Entry}
    (gapless : session.Gapless)
    (numbered : session.tables.Numbered)
    (given : (changes.mapM (noteChange before after time)).Gives session entries later) :
    later.Gapless ∧ Consecutive (session.tables.trail.length + 1) entries := by
  induction changes generalizing session entries with
  | nil =>
      obtain ⟨rfl, rfl⟩ := gives_pure.mp given
      exact ⟨gapless, trivial⟩
  | cons change changes ih =>
      simp only [List.mapM_cons, gives_bind, gives_pure] at given
      obtain ⟨entry, middle, first, rest, _, others, rfl, rfl⟩ := given
      obtain ⟨gaplessThen, order, tables, numberedThen⟩ :=
        noteChange_gapless gapless numbered first
      obtain ⟨gaplessAfter, consecutive⟩ := ih gaplessThen numberedThen others
      refine ⟨gaplessAfter, order, ?_⟩
      rw [tables, noting, List.length_append] at consecutive
      exact consecutive

theorem note_gapless
    {entries : List Entry}
    (gapless : session.Gapless)
    (numbered : session.tables.Numbered)
    (given : (note before after).Gives session entries later) :
    later.Gapless ∧ Consecutive (session.tables.trail.length + 1) entries := by
  simp only [note, gives_bind, gives_now] at given
  obtain ⟨_, clocked, ⟨-, rfl⟩, notes⟩ := given
  have gaplessThen : (afterClock session).Gapless := gapless.of_same ⟨rfl, rfl, rfl⟩
  have numberedThen : (afterClock session).tables.Numbered := numbered
  have noted := mapM_noteChange_gapless gaplessThen numberedThen notes
  exact noted

end

/-! ## Operations that draw no number of the trail -/

section

variable
  {α β : Type}
  {work : Work α}
  {session before after : Session}

/-- What a transitive relation says of both parts of a sequence, it says of the sequence. -/
theorem related_bind
    (relation : Session → Session → Prop)
    {next : α → Work β}
    (trans : ∀ {before middle after},
      relation before middle → relation middle after → relation before after)
    (first : ∀ session, relation session (work.runIn session).2)
    (rest : ∀ value session, relation session ((next value).runIn session).2)
    (session : Session) :
    relation session ((work >>= next).runIn session).2 := by
  have begins := first session
  rw [runIn_bind]
  rcases ran : work.runIn session with ⟨outcome, middle⟩
  rw [ran] at begins
  cases outcome with
  | error fault => exact begins
  | ok value => exact trans begins (rest value middle)

/-- The memory of the last number of the trail stays as it is, whatever comes of it. -/
def LeavesMark (work : Work α) : Prop :=
  ∀ session, (work.runIn session).2.marks.last .trail = session.marks.last .trail

/-- At most nonces are drawn, and only the tables are written. -/
def DrawsNonces (work : Work α) : Prop :=
  ∀ session, ∃ tables nonce,
    (work.runIn session).2 = { session with tables, drawn := { session.drawn with nonce } }

theorem LeavesMark.last_eq
    {value : α}
    (leaves : work.LeavesMark)
    (given : work.Gives before value after) :
    after.marks.last .trail = before.marks.last .trail := by
  have same := leaves before
  rw [given] at same
  exact same

theorem DrawsNonces.after_eq
    {value : α}
    (draws : work.DrawsNonces)
    (given : work.Gives before value after) :
    ∃ tables nonce,
      after = { before with tables, drawn := { before.drawn with nonce } } := by
  have drew := draws before
  rw [given] at drew
  exact drew

theorem LeavesMark.bind
    {next : α → Work β}
    (first : work.LeavesMark)
    (rest : ∀ value, (next value).LeavesMark) :
    (work >>= next).LeavesMark :=
  related_bind (fun before after => after.marks.last .trail = before.marks.last .trail)
    (fun begins ends => ends.trans begins) first rest

theorem DrawsNonces.bind
    {next : α → Work β}
    (first : work.DrawsNonces)
    (rest : ∀ value, (next value).DrawsNonces) :
    (work >>= next).DrawsNonces := by
  apply related_bind (fun before after => ∃ tables nonce,
    after = { before with tables, drawn := { before.drawn with nonce } }) _ first rest
  rintro before _ _ ⟨tables, nonce, rfl⟩ ⟨tablesThen, nonceThen, rfl⟩
  exact ⟨tablesThen, nonceThen, rfl⟩

theorem DrawsNonces.leavesMark (draws : work.DrawsNonces) : work.LeavesMark := by
  intro session
  rcases draws session with ⟨tables, nonce, same⟩
  rw [same]

theorem drawsNonces_pure (value : α) : (pure value : Work α).DrawsNonces :=
  fun session => ⟨session.tables, session.drawn.nonce, rfl⟩

theorem drawsNonces_throw (fault : Fault) : (throw fault : Work α).DrawsNonces :=
  fun session => ⟨session.tables, session.drawn.nonce, rfl⟩

theorem drawsNonces_ask (question : Tables → Except Fault α) : (ask question).DrawsNonces :=
  fun session => ⟨session.tables, session.drawn.nonce, by rw [runIn_ask]⟩

theorem drawsNonces_freshNonce : freshNonce.DrawsNonces :=
  fun session => ⟨session.tables, _, rfl⟩

theorem drawsNonces_answer (statement : Tables → Except Fault (Tables × α)) :
    (answer statement).DrawsNonces := by
  intro session
  rw [runIn_answer]
  cases statement session.tables with
  | error fault => exact ⟨session.tables, session.drawn.nonce, rfl⟩
  | ok result => exact ⟨result.1, session.drawn.nonce, rfl⟩

theorem drawsNonces_execute (statement : Tables → Except Fault Tables) :
    (execute statement).DrawsNonces :=
  drawsNonces_answer _

theorem drawsNonces_require
    {ρ : Type}
    (check : Except ρ Unit)
    (fault : ρ → Fault) :
    (require check fault).DrawsNonces := by
  cases check with
  | error rule => exact drawsNonces_throw _
  | ok passed => exact drawsNonces_pure _

theorem leavesMark_now : now.LeavesMark :=
  fun _ => rfl

theorem leavesMark_freshId (kind : IdKind) : (freshId kind).LeavesMark :=
  fun _ => rfl

/-- A place of an organization or of a user is no number of the trail. -/
theorem leavesMark_place : (nextNumber .entity).LeavesMark := by
  intro session
  rw [nextNumber, runIn_bind, runIn_ask]
  cases session.tables.highest .entity with
  | error fault => rfl
  | ok stored => rfl

/-- If the operation fails in a session, it has drawn no number of the trail. -/
def FailsUnnumbered
    (work : Work α)
    (session : Session) :
    Prop :=
  ∀ fault after, work.Fails session fault after →
    after.marks.last .trail = session.marks.last .trail

theorem LeavesMark.failsUnnumbered
    (leaves : work.LeavesMark)
    (session : Session) :
    work.FailsUnnumbered session := by
  intro fault after fails
  have same := leaves session
  rw [fails] at same
  exact same

theorem Gives.failsUnnumbered
    {value : α}
    (given : work.Gives before value after) :
    work.FailsUnnumbered before := by
  intro fault after fails
  rw [Gives, fails] at given
  cases given

/-- What draws no number may be followed by what draws none if it fails. -/
theorem LeavesMark.bind_failsUnnumbered
    {next : α → Work β}
    (first : work.LeavesMark)
    (rest : ∀ value middle, work.Gives session value middle →
      (next value).FailsUnnumbered middle) :
    (work >>= next).FailsUnnumbered session := by
  intro fault after fails
  have begins := first session
  rw [Fails, runIn_bind] at fails
  rcases ran : work.runIn session with ⟨outcome, middle⟩
  rw [ran] at begins fails
  cases outcome with
  | error other =>
      cases fails
      exact begins
  | ok value => exact (rest value middle ran fault after fails).trans begins

theorem FailsUnnumbered.ite
    {condition : Prop}
    [Decidable condition]
    {other : Work α}
    (first : condition → work.FailsUnnumbered session)
    (second : ¬ condition → other.FailsUnnumbered session) :
    (if condition then work else other).FailsUnnumbered session := by
  split
  · next holds => exact first holds
  · next fails => exact second fails

theorem failsUnnumbered_throw
    (fault : Fault)
    (next : β → Work α)
    (session : Session) :
    ((throw fault : Work β) >>= next).FailsUnnumbered session :=
  (drawsNonces_throw fault).leavesMark.bind_failsUnnumbered
    fun _ _ never => (gives_throw.mp never).elim

/-- What fails in a way that draws no number may be followed by what never fails. -/
theorem FailsUnnumbered.answered
    {answer : α → β}
    (fails : work.FailsUnnumbered session) :
    FailsUnnumbered (do return answer (← work)) session := by
  intro fault after failed
  rw [Fails, runIn_bind] at failed
  rcases ran : work.runIn session with ⟨outcome, middle⟩
  rw [ran] at failed
  cases outcome with
  | error other =>
      cases failed
      exact fails _ _ ran
  | ok value => cases failed

end

end Work

/-! ## Changing a record -/

/-- Kinds of records that are written with nothing drawn but nonces. -/
class Quiet
    (R : Type)
    [Versioned R] :
    Prop where
  overwrite (ring : KeyRing) (record : R) (expected : Signature) :
    (Versioned.overwrite ring record expected).DrawsNonces

theorem User.drawsNonces_sealTexts
    (ring : KeyRing)
    (user : User) :
    (user.sealTexts ring).DrawsNonces := by
  have enclosed (text : String) : Work.DrawsNonces (do
      return SealedField.enclose ring.currentKey ring.current (← Work.freshNonce) text) :=
    Work.drawsNonces_freshNonce.bind fun _ => Work.drawsNonces_pure _
  rw [User.sealTexts]
  split
  · exact (Work.drawsNonces_throw _).bind fun _ =>
      (enclosed _).bind fun _ => (enclosed _).bind fun _ =>
        (enclosed _).bind fun _ => Work.drawsNonces_pure _
  · exact (enclosed _).bind fun _ => (enclosed _).bind fun _ =>
      (enclosed _).bind fun _ => Work.drawsNonces_pure _

instance : Quiet Org where
  overwrite := fun _ _ _ => Work.drawsNonces_answer _

instance : Quiet User where
  overwrite := fun ring user _ =>
    (user.drawsNonces_sealTexts ring).bind fun _ => Work.drawsNonces_answer _

namespace Work

variable
  {R : Type}
  [Versioned R]
  [Kept R]
  [Quiet R]
  {ring : KeyRing}
  {id : Id (Versioned.idKind R)}
  {expected : Signature}
  {change : R → Work R}
  {session : Session}

omit [Kept R] [Quiet R] in
theorem drawsNonces_load
    (ring : KeyRing)
    (id : Id (Versioned.idKind R)) :
    (load ring id : Work R).DrawsNonces := by
  apply (drawsNonces_ask _).bind
  intro found
  cases found with
  | some record => exact drawsNonces_pure record
  | none => exact drawsNonces_throw _

omit [Kept R] [Quiet R] in
theorem leavesMark_restamped (before after : R) : (restamped before after).LeavesMark :=
  leavesMark_now.bind fun _ => (leavesMark_freshId _).bind fun _ =>
    (drawsNonces_pure _).leavesMark

/-- A change that fails has drawn no number of the trail, for noting does not fail. -/
theorem mutate_failsUnnumbered
    {entries : List Entry}
    (changes : ∀ record, (change record).LeavesMark)
    (looks : LooksAtRecord change)
    (sound : session.tables.Sound)
    (traced : session.tables.Traced entries) :
    (mutate ring id expected change).FailsUnnumbered session := by
  apply (drawsNonces_load ring id).leavesMark.bind_failsUnnumbered
  intro loaded start loads
  obtain ⟨found, rfl⟩ := gives_load.mp loads
  refine .ite (fun _ => failsUnnumbered_throw _ _ _) fun current => ?_
  apply (changes loaded).bind_failsUnnumbered
  intro changed middle given
  obtain rfl := looks _ _ _ _ given
  apply (leavesMark_restamped loaded _).bind_failsUnnumbered
  intro record stamped stamps
  have sameTables := (restamped_gives stamps).2.2
  apply (Quiet.overwrite ring record expected).leavesMark.bind_failsUnnumbered
  intro updated written overwrites
  refine .ite (fun _ => ?_) fun succeeded => ?_
  · exact (drawsNonces_load ring id).leavesMark.bind_failsUnnumbered
      fun _ _ _ => failsUnnumbered_throw _ _ _
  · apply (drawsNonces_execute _).leavesMark.bind_failsUnnumbered
    intro _ registered registers
    obtain rfl : updated = true := by simpa using succeeded
    obtain rfl := not_not.mp current
    rw [← sameTables] at sound traced
    rcases note_succeeds_of_written sound traced overwrites registers with ⟨_, _, notes⟩
    exact notes.failsUnnumbered.answered

/-- A change that succeeds adds its entries without a gap. -/
theorem mutate_gapless
    {mutation : Mutation R}
    {after : Session}
    (looks : LooksAtRecord change)
    (sound : session.tables.Sound)
    (gapless : session.Gapless)
    (given : (mutate ring id expected change).Gives session mutation after) :
    after.Gapless ∧ Consecutive (session.tables.trail.length + 1) mutation.entries := by
  obtain ⟨loaded, changed, written, registered, steps⟩ := mutate_steps looks given
  rcases Kept.overwritten steps.overwrites with ⟨old, new, overwritten⟩
  rcases register_eq_ok.mp steps.registers with ⟨-, tables⟩
  have numbered : registered.tables.Numbered := by
    rw [tables]
    exact (overwritten.numbered sound).registering _ _ _
  have last := (Quiet.overwrite ring mutation.record expected).leavesMark.last_eq
    steps.overwrites
  have same : session.SameTrail registered := by
    rcases overwritten.overwritten with ⟨earlier, later, -, restored, -⟩
    constructor
    · rw [tables, restored]
      exact trail_restore _ _ _
    · rw [tables, restored]
      exact marks_restore _ _ _
    · rw [steps.sameDraws]
      exact last
  have noted := note_gapless (gapless.of_same same) numbered steps.notes
  rwa [same.trail] at noted

end Work

/-! ## Transactions -/

namespace Tables

theorem higher_eq_or
    (left right : Cell Int) :
    higher left right = left ∨ higher left right = right := by
  rw [higher]
  split
  · exact .inl rfl
  · exact .inr rfl

/-- A mark that is raised to at most a number is not above it afterwards. -/
theorem TrailMarkedUpTo.raiseMark
    {tables : Tables}
    {sequence : Sequence}
    {bound value : Int}
    (marked : tables.TrailMarkedUpTo bound)
    (below : sequence = .trail → value ≤ bound) :
    (tables.raiseMark sequence value).TrailMarkedUpTo bound := by
  intro mark member named number holds
  rw [Tables.raiseMark] at member
  split at member
  · rcases List.mem_map.mp member with ⟨old, inTable, rfl⟩
    split at named
    · next ofSequence =>
        rw [if_pos ofSequence] at holds
        have same : sequence = .trail := by
          by_contra other
          exact holds_name_ne other (ofSequence.symm.trans named)
        rcases higher_eq_or old.value (.holds value) with kept | raised
        · exact marked old inTable named number (kept.symm.trans holds)
        · rw [← Cell.holds.inj (raised.symm.trans holds)]
          exact below same
    · next other =>
        rw [if_neg other] at holds
        exact marked old inTable named number holds
  · rcases List.mem_append.mp member with inTable | new
    · exact marked mark inTable named number holds
    · obtain rfl := List.mem_singleton.mp new
      have same : sequence = .trail := by
        by_contra other
        exact holds_name_ne other named
      rw [← Cell.holds.inj holds]
      exact below same

end Tables

namespace Session.Gapless

variable {before middle : Session}

/-- If no number of the trail was drawn, none is lost with a transaction that fails. -/
theorem rollback
    (gapless : before.Gapless)
    (last : middle.marks.last .trail = before.marks.last .trail) :
    (Work.rollback before.tables middle).Gapless := by
  cases unsaved : middle.marks.unsaved with
  | false =>
      rw [Work.rollback_of_saved unsaved]
      exact gapless.of_same ⟨rfl, rfl, last⟩
  | true =>
      rw [Work.rollback_of_unsaved unsaved]
      have below : middle.marks.trail ≤ before.tables.trail.length :=
        Int.le_trans (Int.le_of_eq last) gapless.last
      have raisedEntity := rests_raiseMark before.tables .entity middle.marks.entity
      have raisedTrail := rests_raiseMark
        (before.tables.raiseMark .entity middle.marks.entity) .trail middle.marks.trail
      have trail := raisedTrail.trail.trans raisedEntity.trail
      have marked : TrailMarkedUpTo (before.tables.raiseMark .entity middle.marks.entity)
          before.tables.trail.length :=
        gapless.marked.raiseMark fun other => absurd other (by decide)
      constructor
      · rw [trail]
        exact gapless.orders
      · rw [trail]
        exact marked.raiseMark fun _ => below
      · rw [trail]
        exact below

end Session.Gapless

namespace Work

variable
  {α β : Type}
  {work : Work α}
  {session : Session}

/-- Whatever comes of an operation in a session, the trail has no gaps afterwards. -/
def StaysGapless
    (work : Work α)
    (session : Session) :
    Prop :=
  session.Gapless → (work.runIn session).2.Gapless

/-- A transaction is rolled back if it fails. -/
theorem staysGapless_transaction
    (gives : ∀ value after, work.Gives session value after → session.Gapless → after.Gapless)
    (fails : work.FailsUnnumbered session) :
    StaysGapless (transaction work) session := by
  intro gapless
  rw [runIn_transaction]
  rcases ran : work.runIn session with ⟨outcome, after⟩
  cases outcome with
  | error fault => exact gapless.rollback (fails fault after ran)
  | ok value => exact (gives value after ran gapless).of_same ⟨rfl, rfl, rfl⟩

theorem StaysGapless.answered
    {answer : α → β}
    (stays : work.StaysGapless session) :
    StaysGapless (do return answer (← work)) session := by
  intro gapless
  have gaplessThen := stays gapless
  rw [runIn_bind]
  rcases ran : work.runIn session with ⟨outcome, after⟩
  rw [ran] at gaplessThen
  cases outcome <;> exact gaplessThen

theorem StaysGapless.required
    {ρ : Type}
    {check : Except ρ Unit}
    {fault : ρ → Fault}
    (stays : work.StaysGapless session) :
    StaysGapless (do require check fault; work) session := by
  intro gapless
  cases check with
  | error rule => exact gapless
  | ok passed => exact stays gapless

end Work

/-! ## Requests -/

namespace Directory

variable
  {ring : KeyRing}
  {session after : Session}
  {entries : List Entry}

theorem leavesMark_initialStamp
    (status : Status)
    (role : Role) :
    (initialStamp status role).LeavesMark :=
  Work.leavesMark_place.bind fun _ => Work.leavesMark_now.bind fun _ =>
    (Work.leavesMark_freshId _).bind fun _ => (Work.drawsNonces_pure _).leavesMark

theorem leavesMark_insertUser
    (ring : KeyRing)
    (org : OrgId)
    (new : NewUser) :
    (insertUser ring org new).LeavesMark := by
  have inserts (user : User) : (user.insert ring).DrawsNonces :=
    (user.drawsNonces_sealTexts ring).bind fun _ => Work.drawsNonces_execute _
  exact (Work.leavesMark_freshId _).bind fun _ =>
    (leavesMark_initialStamp _ _).bind fun _ =>
      ((inserts _).bind fun _ => (Work.drawsNonces_execute _).bind fun _ =>
        Work.drawsNonces_pure _).leavesMark

theorem leavesMark_insertOrg
    (ring : KeyRing)
    (name : String)
    (new : NewOrg) :
    (insertOrg ring name new).LeavesMark :=
  (Work.leavesMark_freshId _).bind fun _ =>
    (leavesMark_insertUser _ _ _).bind fun _ =>
      (leavesMark_initialStamp _ _).bind fun _ =>
        ((Work.drawsNonces_require _ _).bind fun _ => (Work.drawsNonces_execute _).bind fun _ =>
          (Work.drawsNonces_execute _).bind fun _ => Work.drawsNonces_pure _).leavesMark

theorem drawsNonces_requireMember
    (user : UserId)
    (org : OrgId) :
    (requireMember user org).DrawsNonces := by
  apply (Work.drawsNonces_ask _).bind
  intro found
  cases found with
  | none => exact Work.drawsNonces_throw _
  | some known =>
      dsimp only
      split
      · exact Work.drawsNonces_throw _
      · exact Work.drawsNonces_pure _

/-- A new user is not told of in the trail. -/
theorem insertUser_sameTrail
    {org : OrgId}
    {new : NewUser}
    {user : User}
    (given : (insertUser ring org new).Gives session user after) :
    session.SameTrail after := by
  rcases insertUser_gives given with ⟨texts, inserted, -⟩
  exact ⟨inserted.trail_eq, (Undergoes.inserted inserted).marks_eq,
    (leavesMark_insertUser ring org new).last_eq given⟩

/-- Neither is a new organization, before its owner is promoted. -/
theorem insertOrg_sameTrail
    {name : String}
    {new : NewOrg}
    {created : CreatedOrg}
    (given : (insertOrg ring name new).Gives session created after) :
    session.SameTrail after := by
  rcases insertOrg_gives given with ⟨ownerTables, texts, owner, org, -⟩
  exact ⟨org.trail_eq.trans owner.trail_eq,
    (Undergoes.inserted org).marks_eq.trans (Undergoes.inserted owner).marks_eq,
    (leavesMark_insertOrg ring name new).last_eq given⟩

theorem staysGapless_createUser
    (org : OrgId)
    (new : NewUser) :
    (createUser ring org new).StaysGapless session := by
  apply Work.StaysGapless.required
  apply Work.staysGapless_transaction
  · intro user after given gapless
    simp only [org?, Work.gives_bind, Work.gives_ask, Work.gives_ite, Work.gives_throw, false_and,
      exists_false, and_false, false_or] at given
    rcases given with ⟨found, _, ⟨-, rfl⟩, -, inserts⟩
    exact gapless.of_same (insertUser_sameTrail inserts)
  · apply (Work.drawsNonces_ask _).leavesMark.bind_failsUnnumbered
    intro found middle _
    refine .ite (fun _ => Work.failsUnnumbered_throw _ _ _) fun _ => ?_
    exact (leavesMark_insertUser ring org new).failsUnnumbered middle

theorem staysGapless_createOrg
    (new : NewOrg)
    (sound : session.tables.Sound)
    (traced : session.tables.Traced entries) :
    (createOrg ring new).StaysGapless session := by
  apply Work.StaysGapless.required
  apply Work.StaysGapless.required
  apply Work.staysGapless_transaction
  · intro created after given gapless
    rcases Work.gives_bind.mp given with ⟨inserted, middle, inserts, promotes⟩
    rcases insertOrg_gives inserts with ⟨ownerTables, texts, owner, org, -⟩
    rcases promoteOwner_gives promotes with ⟨promotion, mutates, -⟩
    have soundThen := (Undergoes.inserted org).sound ((Undergoes.inserted owner).sound sound)
    have gaplessThen := gapless.of_same (insertOrg_sameTrail inserts)
    exact (Work.mutate_gapless (Work.looksAtRecord_pure _) soundThen gaplessThen mutates).1
  · apply (leavesMark_insertOrg ring _ new).bind_failsUnnumbered
    intro inserted middle inserts
    rcases insertOrg_gives inserts with ⟨ownerTables, texts, owner, org, -⟩
    have soundOwner := (Undergoes.inserted owner).sound sound
    have soundThen := (Undergoes.inserted org).sound soundOwner
    have tracedThen := (traced.inserted owner sound).inserted org soundOwner
    apply Work.FailsUnnumbered.answered
    exact Work.mutate_failsUnnumbered (fun _ => (Work.drawsNonces_pure _).leavesMark)
      (Work.looksAtRecord_pure _) soundThen tracedThen

end Directory

/-- A change in a transaction of its own leaves no gap, whether it succeeds or fails. -/
theorem Work.staysGapless_mutate
    {R : Type}
    [Versioned R]
    [Kept R]
    [Quiet R]
    {ring : KeyRing}
    {id : Id (Versioned.idKind R)}
    {expected : Signature}
    {change : R → Work R}
    {session : Session}
    {entries : List Entry}
    (changes : ∀ record, (change record).DrawsNonces)
    (looks : LooksAtRecord change)
    (sound : session.tables.Sound)
    (traced : session.tables.Traced entries) :
    StaysGapless (transaction (mutate ring id expected change)) session :=
  staysGapless_transaction
    (fun _ _ given gapless => (mutate_gapless looks sound gapless given).1)
    (mutate_failsUnnumbered (fun record => (changes record).leavesMark) looks sound traced)

/-- Whatever comes of a request, the trail has no gaps afterwards. -/
theorem Request.staysGapless
    {session : Session}
    {entries : List Entry}
    (request : Request)
    (ring : KeyRing)
    (sound : session.tables.Sound)
    (traced : session.tables.Traced entries) :
    (request.perform ring).StaysGapless session := by
  have checks {R ρ : Type} (check : Except ρ Unit) (fault : ρ → Fault) (changed : R) :
      Work.DrawsNonces (do Work.require check fault; return changed) :=
    (Work.drawsNonces_require _ _).bind fun _ => Work.drawsNonces_pure _
  cases request with
  | createOrg new =>
      exact (Directory.staysGapless_createOrg new sound traced).answered
  | createUser org new =>
      exact (Directory.staysGapless_createUser org new).answered
  | setOrgStatus id expected status =>
      exact (Work.staysGapless_mutate (fun _ => Work.drawsNonces_pure _)
        (Work.looksAtRecord_pure _) sound traced).answered
  | setOwner id expected owner =>
      apply Work.StaysGapless.answered
      apply Work.staysGapless_transaction
      · intro mutation after given gapless
        rcases Work.gives_bind.mp given with ⟨_, middle, isMember, mutates⟩
        obtain rfl := Directory.requireMember_gives isMember
        exact (Work.mutate_gapless (Work.looksAtRecord_pure _) sound gapless mutates).1
      · apply (Directory.drawsNonces_requireMember owner id).leavesMark.bind_failsUnnumbered
        intro _ middle isMember
        obtain rfl := Directory.requireMember_gives isMember
        exact Work.mutate_failsUnnumbered (fun _ => (Work.drawsNonces_pure _).leavesMark)
          (Work.looksAtRecord_pure _) sound traced
  | renameOrg id expected name =>
      exact (Work.staysGapless_mutate (fun _ => checks _ _ _) (Work.looksAtRecord_require _ _ _)
        sound traced).answered
  | setDisplayName _ _ _ | setPublicKey _ _ _ | setEmail _ _ _ | setPassword _ _ _
  | setUserStatus _ _ _ | rekey _ _ =>
      exact (Work.staysGapless_mutate (fun _ => checks _ _ _) (Work.looksAtRecord_require _ _ _)
        sound traced).answered

/-! ## Events and runs -/

namespace Session

theorem gapless_founded (source : Source) : (founded source).Gapless where
  orders := rfl
  marked := by
    intro mark member
    cases member
  last := Int.le_refl 0

theorem Gapless.reopened
    {session : Session}
    (gapless : session.Gapless) :
    session.reopened.Gapless := by
  have trail := (rests_founded session.tables).trail
  have marks : session.tables.founded.marks = session.tables.marks := by
    rw [Tables.founded]
    split <;> rfl
  constructor
  · rw [Session.reopened, trail]
    exact gapless.orders
  · rw [Session.reopened, TrailMarkedUpTo, marks, trail]
    exact gapless.marked
  · exact Int.natCast_nonneg _

end Session

theorem Event.gapless
    {session : Session}
    (event : Event)
    (regular : session.tables.Regular)
    (gapless : session.Gapless) :
    (event.step session).Gapless := by
  cases event with
  | performed ring request =>
      rcases regular.traced with ⟨entries, traced⟩
      exact request.staysGapless ring regular.sound traced gapless
  | answered ring query =>
      rw [step, Query.onlyReads]
      exact gapless
  | reopened => exact gapless.reopened

/-! ## The main statement -/

theorem Session.Gapless.after
    {session : Session}
    (gapless : session.Gapless)
    (regular : session.tables.Regular)
    (events : List Event) :
    (session.after events).Gapless := by
  induction events generalizing session with
  | nil => exact gapless
  | cons event events ih =>
      exact ih (event.gapless regular gapless)
        (regular.evolves (event.evolves regular.sound))

/--
In every run from an empty store the entries of the trail are numbered from one on, and no
number is left out, although requests may fail and processes may end between any two of
them; no mark that is stored or remembered is beyond the entries.
-/
theorem trail_has_no_gaps
    (source : Source)
    (events : List Event) :
    ((Session.founded source).after events).Gapless :=
  (Session.gapless_founded source).after (Session.regular_after source []) events

end SealedDirectory
