import SealedDirectory.Proofs.Directory.Founding

/-!
# A request that fails leaves no trace

A request that fails has changed no organization, no user, no entry of the trail, no
registered signature and no remark.  What stays of it are the marks of the sequences:
if numbers were drawn, the marks are raised to them, and otherwise they stay as well.

The statement covers stores that somebody has edited in any way, so nothing is assumed
about the rows, and not even that a mark is a number.  Marks are compared in the order
of the store.
-/

namespace SealedDirectory

/-! ## The order of contents -/

namespace Content

theorem atMost_refl (content : Content) :
    content.atMost content = true := by
  cases content <;> simp [atMost]

theorem atMost_total (left right : Content) :
    left.atMost right = true ∨ right.atMost left = true := by
  cases left <;> cases right <;> simp [atMost] <;> first | omega | exact String.le_total ..

theorem atMost_of_le
    {number value : Int}
    {content : Content}
    (below : number ≤ value)
    (ordered : (integer value).atMost content = true) :
    (integer number).atMost content = true := by
  cases content with
  | nothing => cases ordered
  | integer other =>
      simp only [atMost, decide_eq_true_eq] at ordered ⊢
      omega
  | double bits =>
      simp only [atMost, decide_eq_true_eq] at ordered ⊢
      have scaled : number * Double.unitsPerOne ≤ value * Double.unitsPerOne :=
        Int.mul_le_mul_of_nonneg_right below (by decide +kernel)
      exact Int.le_trans scaled ordered
  | text other => rfl

end Content

namespace Tables

/-! ## Marks -/

def markRow?
    (tables : Tables)
    (sequence : Sequence) :
    Option MarkRow :=
  tables.marks.find? fun mark => mark.name = .holds sequence.name

/-- What is stored as the mark of a sequence; a mark that is missing counts as zero. -/
def mark
    (tables : Tables)
    (sequence : Sequence) :
    Content :=
  ((tables.markRow? sequence).map fun mark => mark.value.content).getD (.integer 0)

variable {tables : Tables} {sequence other : Sequence} {value : Int}

theorem higher_content
    (left right : Cell Int) :
    left.content.atMost (higher left right).content = true ∧
      right.content.atMost (higher left right).content = true := by
  rw [higher]
  split
  · next below => exact ⟨Content.atMost_refl _, below⟩
  · next above =>
      refine ⟨?_, Content.atMost_refl _⟩
      rcases Content.atMost_total left.content right.content with ordered | ordered
      · exact ordered
      · exact absurd ordered above

theorem holds_name_ne
    (differ : other ≠ sequence) :
    Cell.holds other.name ≠ Cell.holds sequence.name := by
  cases other <;> cases sequence <;> first | exact absurd rfl differ | decide

/-- A mark as it is when the mark of a sequence was raised. -/
def raisedMark
    (sequence : Sequence)
    (value : Int)
    (mark : MarkRow) :
    MarkRow :=
  if mark.name = .holds sequence.name then
    { mark with value := higher mark.value (.holds value) }
  else mark

theorem name_raisedMark
    (mark : MarkRow) :
    (raisedMark sequence value mark).name = mark.name := by
  rw [raisedMark]
  split <;> rfl

/-- Where a sequence has a mark, it is raised in its place. -/
theorem markRow?_raiseMark_of_some
    {old : MarkRow}
    (present : tables.markRow? sequence = some old) :
    (tables.raiseMark sequence value).markRow? other =
      (tables.markRow? other).map (raisedMark sequence value) := by
  have marked :
      (tables.marks.any fun mark => mark.name = .holds sequence.name) = true := by
    have named := List.find?_some present
    rw [List.any_eq_true]
    exact ⟨old, List.mem_of_find?_eq_some present, named⟩
  have raised :
      (tables.raiseMark sequence value).marks =
        tables.marks.map (raisedMark sequence value) := by
    rw [raiseMark, if_pos marked]
    rfl
  rw [markRow?, raised, List.find?_map, markRow?]
  congr 2
  funext mark
  rw [Function.comp_apply, name_raisedMark]

/-- Where a sequence has no mark, it gets one. -/
theorem markRow?_raiseMark_of_none
    (absent : tables.markRow? sequence = none) :
    (tables.raiseMark sequence value).markRow? other =
      (tables.markRow? other).or
        (if other = sequence then some ⟨.holds sequence.name, .holds value⟩ else none) := by
  have unmarked :
      ¬ (tables.marks.any fun mark => mark.name = .holds sequence.name) = true := by
    rw [List.any_eq_true]
    rintro ⟨mark, member, named⟩
    exact List.find?_eq_none.mp absent mark member named
  have raised :
      (tables.raiseMark sequence value).marks =
        tables.marks ++ [⟨.holds sequence.name, .holds value⟩] := by
    rw [raiseMark, if_neg unmarked]
  rw [markRow?, raised, List.find?_append, markRow?]
  by_cases same : other = sequence
  · simp [same]
  · simp [same, (holds_name_ne same).symm]

/-- Raising the mark of one sequence leaves the mark of the other one alone. -/
theorem mark_raiseMark_of_ne
    (differ : other ≠ sequence) :
    (tables.raiseMark sequence value).mark other = tables.mark other := by
  rw [mark, mark]
  rcases present : tables.markRow? sequence with - | old
  · rw [markRow?_raiseMark_of_none present, if_neg differ, Option.or_none]
  · rw [markRow?_raiseMark_of_some present]
    rcases found : tables.markRow? other with - | mark
    · rfl
    · have named := List.find?_some found
      rw [decide_eq_true_eq] at named
      rw [Option.map_some, raisedMark, if_neg (named ▸ holds_name_ne differ)]

/-- A mark that is raised is at least what it was and what it is raised to. -/
theorem atMost_mark_raiseMark
    (natural : 0 ≤ value) :
    (tables.mark sequence).atMost
        ((tables.raiseMark sequence value).mark sequence) = true ∧
      (Content.integer value).atMost
        ((tables.raiseMark sequence value).mark sequence) = true := by
  rw [mark, mark]
  rcases present : tables.markRow? sequence with - | old
  · rw [markRow?_raiseMark_of_none present, present]
    simpa [Content.atMost, Cell.content, Storable.content] using natural
  · have named := List.find?_some present
    rw [decide_eq_true_eq] at named
    rw [markRow?_raiseMark_of_some present, present]
    simp only [Option.map_some, Option.getD_some, raisedMark, if_pos named]
    exact higher_content old.value (.holds value)

/-- Both marks are raised, one after the other. -/
theorem atMost_mark_raiseBoth
    (tables : Tables)
    {marks : Marks}
    (entity : 0 ≤ marks.last .entity)
    (trail : 0 ≤ marks.last .trail)
    (sequence : Sequence) :
    let raised := (tables.raiseMark .entity marks.entity).raiseMark .trail marks.trail
    (tables.mark sequence).atMost (raised.mark sequence) = true ∧
      (Content.integer (marks.last sequence)).atMost (raised.mark sequence) = true := by
  cases sequence with
  | entity =>
      intro raised
      have same : raised.mark .entity =
          (tables.raiseMark .entity marks.entity).mark .entity :=
        mark_raiseMark_of_ne (by decide)
      rw [same]
      exact atMost_mark_raiseMark entity
  | trail =>
      intro raised
      have same : tables.mark .trail =
          (tables.raiseMark .entity marks.entity).mark .trail :=
        (mark_raiseMark_of_ne (by decide)).symm
      rw [same]
      exact atMost_mark_raiseMark trail

end Tables

/-! ## Sessions between transactions -/

/-- If nothing was drawn, a transaction that fails restores the tables. -/
theorem Work.rollback_of_saved
    {tables : Tables}
    {session : Session}
    (saved : session.marks.unsaved = false) :
    rollback tables session = { session with tables } := by
  simp [rollback, Marks.save, saved]

/-- If numbers were drawn, it restores the tables and raises both marks. -/
theorem Work.rollback_of_unsaved
    {tables : Tables}
    {session : Session}
    (unsaved : session.marks.unsaved = true) :
    rollback tables session =
      { session with
        tables := (tables.raiseMark .entity session.marks.entity).raiseMark
          .trail session.marks.trail
        marks := session.marks.committed } := by
  simp [rollback, Marks.save, unsaved]


/-- Between transactions nothing is unsaved, and no number below zero was drawn. -/
structure Session.Settled
    (session : Session) :
    Prop where
  saved : session.marks.unsaved = false
  natural : ∀ sequence, 0 ≤ session.marks.last sequence

namespace Session

theorem settled_fresh
    {session : Session}
    (fresh : session.marks = .fresh) :
    session.Settled := by
  constructor
  · rw [fresh]
    rfl
  · intro sequence
    rw [fresh]
    cases sequence <;> decide

variable {before middle : Session} {drawn : List (Sequence × Int)}

/-- A transaction that succeeds leaves nothing unsaved. -/
theorem Settled.commit
    (settled : before.Settled)
    (draws : before.Draws middle drawn) :
    (Work.commit middle).Settled where
  saved := rfl
  natural := by
    intro sequence
    have rises := Int.le_trans (settled.natural sequence) (draws.rises sequence)
    cases sequence <;> exact rises

/-- A transaction that fails leaves nothing unsaved either. -/
theorem Settled.rollback
    (settled : before.Settled)
    (draws : before.Draws middle drawn) :
    (Work.rollback before.tables middle).Settled := by
  have natural (sequence : Sequence) : 0 ≤ middle.marks.last sequence :=
    Int.le_trans (settled.natural sequence) (draws.rises sequence)
  cases unsaved : middle.marks.unsaved with
  | false =>
      rw [Work.rollback_of_saved unsaved]
      exact ⟨unsaved, natural⟩
  | true =>
      rw [Work.rollback_of_unsaved unsaved]
      refine ⟨rfl, ?_⟩
      intro sequence
      cases sequence with
      | entity => exact natural .entity
      | trail => exact natural .trail

/-- Nothing that is stored between two sessions differs but the marks that were drawn. -/
structure Undone
    (before after : Session) :
    Prop where
  orgs : after.tables.orgs = before.tables.orgs
  users : after.tables.users = before.tables.users
  trail : after.tables.trail = before.tables.trail
  registry : after.tables.registry = before.tables.registry
  notes : after.tables.notes = before.tables.notes
  /-- Marks change only if numbers were drawn; they never sink, and they reach the numbers. -/
  marks : ∃ drawn,
    after.handed = drawn ++ before.handed ∧
    (drawn = [] → after.tables.marks = before.tables.marks) ∧
    ∀ sequence,
      (before.tables.mark sequence).atMost (after.tables.mark sequence) = true ∧
      ∀ number, (sequence, number) ∈ drawn →
        (Content.integer number).atMost (after.tables.mark sequence) = true

theorem Undone.refl
    (session : Session) :
    session.Undone session where
  orgs := rfl
  users := rfl
  trail := rfl
  registry := rfl
  notes := rfl
  marks := by
    refine ⟨[], rfl, fun _ => rfl, ?_⟩
    intro sequence
    exact ⟨Content.atMost_refl _, by simp⟩

/-- A transaction that is rolled back is undone. -/
theorem Settled.undone_rollback
    (settled : before.Settled)
    (draws : before.Draws middle drawn) :
    before.Undone (Work.rollback before.tables middle) := by
  have natural (sequence : Sequence) : 0 ≤ middle.marks.last sequence :=
    Int.le_trans (settled.natural sequence) (draws.rises sequence)
  rcases draws.remembered with ⟨rfl, same⟩ | ⟨some, unsaved⟩
  · have saved : middle.marks.unsaved = false := by rw [same, settled.saved]
    rw [Work.rollback_of_saved saved]
    refine ⟨rfl, rfl, rfl, rfl, rfl, [], draws.handed, fun _ => rfl, ?_⟩
    intro sequence
    exact ⟨Content.atMost_refl _, by simp⟩
  · rw [Work.rollback_of_unsaved unsaved]
    refine ⟨?_, ?_, ?_, ?_, ?_, drawn, draws.handed, fun none => absurd none some, ?_⟩
    · rw [Tables.raiseMark_eq, Tables.raiseMark_eq]
    · rw [Tables.raiseMark_eq, Tables.raiseMark_eq]
    · rw [Tables.raiseMark_eq, Tables.raiseMark_eq]
    · rw [Tables.raiseMark_eq, Tables.raiseMark_eq]
    · rw [Tables.raiseMark_eq, Tables.raiseMark_eq]
    · intro sequence
      have raised := before.tables.atMost_mark_raiseBoth
        (natural .entity) (natural .trail) sequence
      refine ⟨raised.1, ?_⟩
      intro number member
      exact Content.atMost_of_le (draws.covered sequence number member) raised.2

end Session

/-! ## Runs with intrusions -/

/-- What can happen to a store: an event, or that somebody replaces its tables. -/
inductive Incident where
  | event (event : Event)
  | intruded (tables : Tables)

namespace Session

def afterIncident
    (session : Session) :
    Incident → Session
  | .event event => event.step session
  | .intruded tables => { session with tables }

/-- The session after a list of incidents. -/
def through
    (session : Session)
    (incidents : List Incident) :
    Session :=
  incidents.foldl afterIncident session

variable {session : Session}

/-- After every event a session is settled. -/
theorem Settled.step
    (settled : session.Settled)
    (event : Event) :
    (event.step session).Settled := by
  cases event with
  | performed ring request =>
      rw [Event.step]
      cases request.ends ring session with
      | refused refusal =>
          rw [refusal]
          exact settled
      | failed reaches failure =>
          rcases reaches.draws with ⟨drawn, draws⟩
          rw [failure]
          exact settled.rollback draws
      | succeeded reaches stores success =>
          rcases reaches.draws with ⟨drawn, draws⟩
          rw [success]
          exact settled.commit draws
  | answered ring query =>
      rw [Event.step, Query.onlyReads]
      exact settled
  | reopened => exact settled_fresh rfl

theorem Settled.through
    (settled : session.Settled)
    (incidents : List Incident) :
    (session.through incidents).Settled := by
  induction incidents generalizing session with
  | nil => exact settled
  | cons incident incidents ih =>
      apply ih
      cases incident with
      | event event => exact settled.step event
      | intruded tables => exact ⟨settled.saved, settled.natural⟩

end Session

/--
In every store that a run from an empty store reaches, even one that somebody has edited
on the way, a request that fails for whatever reason leaves nothing behind but marks
that cover the numbers it has drawn, and nothing at all if it has drawn none.
-/
theorem failed_requests_are_undone
    (source : Source)
    (incidents : List Incident)
    {ring : KeyRing}
    {request : Request}
    {fault : Fault}
    {after : Session}
    (fails : (request.perform ring).Fails
      ((Session.founded source).through incidents) fault after) :
    ((Session.founded source).through incidents).Undone after := by
  have settled : ((Session.founded source).through incidents).Settled :=
    (Session.settled_fresh rfl).through incidents
  cases request.ends ring ((Session.founded source).through incidents) with
  | refused refusal =>
      cases fails.symm.trans refusal
      exact .refl _
  | failed reaches failure =>
      rcases reaches.draws with ⟨drawn, draws⟩
      cases fails.symm.trans failure
      exact settled.undone_rollback draws
  | succeeded reaches stores success => cases fails.symm.trans success

/-- A source that gives one identifier again and again. -/
def Sample.monotonous : Source :=
  { Sample.source with uuid := fun _ => .ofRandom [] }

/-- An organization whose second signature repeats the first one leaves two numbers. -/
theorem repeated_signature_is_undone :
    ∃ fault after,
      ((Request.createOrg Sample.newOrg).perform Sample.ring).Fails
        (Session.founded Sample.monotonous) fault after ∧
      (Session.founded Sample.monotonous).Undone after ∧
      after.handed.length = 2 := by
  rcases ran : ((Request.createOrg Sample.newOrg).perform Sample.ring).runIn
    (Session.founded Sample.monotonous) with ⟨outcome, after⟩
  have refused : (((Request.createOrg Sample.newOrg).perform Sample.ring).runIn
      (Session.founded Sample.monotonous)).1.isOk = false := by
    decide +kernel
  have two : (((Request.createOrg Sample.newOrg).perform Sample.ring).runIn
      (Session.founded Sample.monotonous)).2.handed.length = 2 := by
    decide +kernel
  rw [ran] at refused two
  cases outcome with
  | ok response => cases refused
  | error fault =>
      exact ⟨fault, after, ran, failed_requests_are_undone Sample.monotonous [] ran, two⟩

end SealedDirectory
