import SealedDirectory.Proofs.Directory.Founding
import Mathlib.Data.List.Nodup

/-!
# The trail can be replayed

The entries about one watched column of a record lead, one after the other, from the
value with which the record was inserted to the value that is stored now.  The invariant
behind this is said for one record: either nothing was done to it and no entry is about
it, or it was inserted once and the entries account for all that happened to it since.
-/

namespace SealedDirectory

/-! ## Replaying entries -/

/-- Entries lead from one value to another; each one changes what the one before it left. -/
inductive Replays : Json → List Entry → Json → Prop
  | done {value : Json} : Replays value [] value
  | next
      {entry : Entry}
      {rest : List Entry}
      {last : Json}
      (differs : entry.details.old ≠ entry.details.new)
      (others : Replays entry.details.new rest last) :
      Replays entry.details.old (entry :: rest) last

theorem Replays.append
    {first middle last : Json}
    {earlier later : List Entry}
    (begins : Replays first earlier middle)
    (ends : Replays middle later last) :
    Replays first (earlier ++ later) last := by
  induction begins with
  | done => exact ends
  | next differs others ih => exact .next differs (ih ends)

/-- No entry begins before the one ahead of it was made. -/
def InTime (entries : List Entry) : Prop :=
  entries.IsChain fun entry later => entry.newTime ≤ later.oldTime

namespace TrailFilter

/-- The filter for one column of a record. -/
def ofColumn
    (kind : RecordKind)
    (id : Uuid)
    (column : String) :
    TrailFilter :=
  { ofRecord kind id.text with column := some column }

/-- The entries that a filter asks for. -/
def choose
    (filter : TrailFilter)
    (entries : List Entry) :
    List Entry :=
  entries.filter fun entry => filter.admits (.ofEntry entry)

variable {kind : RecordKind} {id : Uuid} {column : String} {entry : Entry}

theorem choose_append
    (filter : TrailFilter)
    (earlier later : List Entry) :
    filter.choose (earlier ++ later) = filter.choose earlier ++ filter.choose later :=
  List.filter_append ..

theorem admits_ofColumn :
    (ofColumn kind id column).admits (.ofEntry entry) = true ↔
      (kind = entry.kind ∧ id.text = entry.entity) ∧ column = entry.column := by
  show (decide (kind = entry.kind) && decide (id.text = entry.entity) &&
    decide (column = entry.column)) = true ↔ _
  simp only [Bool.and_eq_true, decide_eq_true_eq]

end TrailFilter

/-! ## The entries of one change -/

namespace TellAll

variable
  {kind : RecordKind}
  {id : Uuid}
  {old new : Contents}
  {entries : List Entry}

/-- The entries of a change of another record are not asked for. -/
theorem choose_eq_nil
    (told : TellAll kind id old new entries)
    {otherKind : RecordKind}
    {otherId : Uuid}
    (other : ¬ (kind = otherKind ∧ id = otherId))
    (column : String) :
    (TrailFilter.ofColumn otherKind otherId column).choose entries = [] := by
  rw [TrailFilter.choose, List.filter_eq_nil_iff]
  intro entry member admitted
  rcases TrailFilter.admits_ofColumn.mp admitted with ⟨⟨sameKind, sameEntity⟩, -⟩
  have tells := told.each entry member
  apply other
  constructor
  · rw [sameKind, tells.kind]
  · apply Uuid.text_injective
    rw [sameEntity, tells.entity]

/-- A column that did not change has no entry. -/
theorem choose_of_same
    (told : TellAll kind id old new entries)
    {column : String}
    (same : old.value column = new.value column) :
    (TrailFilter.ofColumn kind id column).choose entries = [] := by
  rw [TrailFilter.choose, List.filter_eq_nil_iff]
  intro entry member admitted
  rcases TrailFilter.admits_ofColumn.mp admitted with ⟨-, rfl⟩
  have noted : entry.column ∈ entries.map Entry.column :=
    List.mem_map_of_mem member
  rw [told.columns, List.mem_filter] at noted
  simp [same] at noted

/-- A column that changed has one entry. -/
theorem choose_of_differs
    (told : TellAll kind id old new entries)
    {column : String}
    (watched : column ∈ kind.watchedColumns)
    (differs : old.value column ≠ new.value column) :
    ∃ entry ∈ entries, entry.column = column ∧
      (TrailFilter.ofColumn kind id column).choose entries = [entry] := by
  have noted : column ∈ entries.map Entry.column := by
    rw [told.columns, List.mem_filter]
    exact ⟨watched, by simpa using differs⟩
  rcases List.mem_map.mp noted with ⟨entry, member, rfl⟩
  refine ⟨entry, member, rfl, ?_⟩
  have only : (TrailFilter.ofColumn kind id entry.column).choose entries =
      entries.filter fun other => other = entry := by
    apply List.filter_congr
    intro other inEntries
    have tells := told.each other inEntries
    rw [Bool.eq_iff_iff, TrailFilter.admits_ofColumn, tells.kind, tells.entity,
      decide_eq_true_eq]
    constructor
    · rintro ⟨-, same⟩
      exact List.inj_on_of_nodup_map told.nodup inEntries member same.symm
    · rintro rfl
      exact ⟨⟨rfl, rfl⟩, rfl⟩
  rw [only, List.filter_eq, List.count_eq_one_of_mem told.nodup.of_map member]
  rfl

/-- The entries of a change lead from the old value of a watched column to the new one. -/
theorem replays
    (told : TellAll kind id old new entries)
    {column : String}
    (watched : column ∈ kind.watchedColumns) :
    Replays (old.value column).shown
        ((TrailFilter.ofColumn kind id column).choose entries)
        (new.value column).shown ∧
      InTime ((TrailFilter.ofColumn kind id column).choose entries) := by
  by_cases same : old.value column = new.value column
  · rw [told.choose_of_same same, same]
    exact ⟨.done, .nil⟩
  · rcases told.choose_of_differs watched same with ⟨entry, member, rfl, chosen⟩
    have tells := told.each entry member
    rw [chosen, ← tells.oldValue, ← tells.newValue]
    refine ⟨.next ?_ .done, .singleton _⟩
    rw [tells.oldValue, tells.newValue]
    exact Content.shown_injective.ne same

end TellAll

/-! ## What the entries account for -/

/-- Entries about a column lead in time from one content to another, up to a change. -/
structure LeadsTo
    (entries : List Entry)
    (inserted current : Content)
    (changed : Int) :
    Prop where
  replays : Replays inserted.shown entries current.shown
  inTime : InTime entries
  past : ∀ entry ∈ entries, entry.newTime ≤ changed

theorem LeadsTo.append
    {earlier later : List Entry}
    {inserted middle current : Content}
    {changed renewed : Int}
    (leads : LeadsTo earlier inserted middle changed)
    (replays : Replays middle.shown later current.shown)
    (inTime : InTime later)
    (between : ∀ entry ∈ later, entry.oldTime = changed ∧ entry.newTime = renewed)
    (notEarlier : changed ≤ renewed) :
    LeadsTo (earlier ++ later) inserted current renewed where
  replays := leads.replays.append replays
  inTime := by
    apply List.isChain_append.mpr ⟨leads.inTime, inTime, _⟩
    intro last isLast first isFirst
    have before := leads.past last (List.mem_of_mem_getLast? isLast)
    have after := (between first (List.mem_of_mem_head? isFirst)).1
    omega
  past := by
    intro entry member
    rcases List.mem_append.mp member with old | new
    · exact Int.le_trans (leads.past entry old) notEarlier
    · exact Int.le_of_eq (between entry new).2

namespace Deed

/-- What was stored of a record when a deed inserted it. -/
def insertedAs?
    (kind : RecordKind)
    (id : Uuid) :
    Deed → Option Contents
  | .inserted sight row => if sight.kind = kind ∧ sight.id = id then some row else none
  | .changed _ _ => none

theorem insertedAs?_of_other
    {deed : Deed}
    {kind : RecordKind}
    {id : Uuid}
    (other : deed.concerns kind id = false) :
    deed.insertedAs? kind id = none := by
  cases deed with
  | inserted sight row =>
      have apart : ¬ (sight.kind = kind ∧ sight.id = id) :=
        of_decide_eq_false other
      rw [insertedAs?, if_neg apart]
  | changed sight signature => rfl

end Deed

/--
Deeds and entries account for the row of a record: without a row there was nothing, and
for a row there was one insertion, from which the entries lead to the row.
-/
inductive Accounted
    (kind : RecordKind)
    (id : Uuid)
    (deeds : List Deed)
    (entries : List Entry) :
    Option kind.Row → Prop
  | absent
      (never : deeds.filterMap (Deed.insertedAs? kind id) = [])
      (nothing : ∀ column,
        (TrailFilter.ofColumn kind id column).choose entries = []) :
      Accounted kind id deeds entries none
  | stored
      {row : kind.Row}
      {inserted : Contents}
      {changed : Int}
      (once : deeds.filterMap (Deed.insertedAs? kind id) = [inserted])
      (holds : kind.changedCell row = .holds changed)
      (leads : ∀ column ∈ kind.watchedColumns,
        LeadsTo ((TrailFilter.ofColumn kind id column).choose entries)
          (inserted.value column) ((kind.contents row).value column) changed) :
      Accounted kind id deeds entries (some row)

namespace Accounted

variable
  {kind : RecordKind}
  {id : Uuid}
  {deeds : List Deed}
  {deed : Deed}
  {entries more : List Entry}
  {row? : Option kind.Row}

/-- What is done to other records and noted of them does not matter. -/
theorem of_other
    (accounted : Accounted kind id deeds entries row?)
    (other : deed.concerns kind id = false)
    (same : ∀ column,
      (TrailFilter.ofColumn kind id column).choose more =
        (TrailFilter.ofColumn kind id column).choose entries) :
    Accounted kind id (deeds ++ [deed]) more row? := by
  have history :
      (deeds ++ [deed]).filterMap (Deed.insertedAs? kind id) =
        deeds.filterMap (Deed.insertedAs? kind id) := by
    simp [Deed.insertedAs?_of_other other]
  cases accounted with
  | absent never nothing =>
      apply absent
      · rw [history, never]
      · intro column
        rw [same, nothing]
  | stored once holds leads =>
      apply stored _ holds
      · intro column watched
        rw [same]
        exact leads column watched
      · rw [history, once]

end Accounted

namespace Tables

variable
  {kind : RecordKind}
  {id : Uuid}
  {before after : Tables}
  {earlier : List Deed}
  {entries : List Entry}

theorem Inserted.accounted
    {sight : Sight}
    {row : sight.kind.Row}
    (inserted : Inserted sight row before after)
    (accounted : Accounted sight.kind sight.id earlier entries
      (before.row? sight.kind sight.id)) :
    Accounted sight.kind sight.id
      (earlier ++ [.inserted sight (sight.kind.contents row)]) entries
      (after.row? sight.kind sight.id) := by
  rw [inserted.row?_before] at accounted
  cases accounted with
  | absent never nothing =>
      rcases inserted.written.changed_holds with ⟨time, holds⟩
      rw [inserted.row?_after]
      apply Accounted.stored _ holds
      · intro column watched
        rw [nothing]
        exact ⟨.done, .nil, by simp⟩
      · simp [never, Deed.insertedAs?]

theorem Replaced.accounted
    {sight : Sight}
    {signature : Signature}
    {new : List Entry}
    {oldRow newRow : sight.kind.Row}
    (replaced : Replaced sight signature new oldRow newRow before after)
    (accounted : Accounted sight.kind sight.id earlier entries
      (before.row? sight.kind sight.id)) :
    Accounted sight.kind sight.id (earlier ++ [.changed sight signature])
      (entries ++ new) (after.row? sight.kind sight.id) := by
  rw [replaced.row?_before] at accounted
  cases accounted with
  | @stored _ inserted changed once holds leads =>
      rcases replaced.written.changed_holds with ⟨renewed, holdsNew⟩
      have times : ∀ entry ∈ new, entry.oldTime = changed ∧ entry.newTime = renewed := by
        intro entry member
        have tells := replaced.told.each entry member
        have oldTime := tells.oldTime
        have newTime := tells.newTime
        rw [RecordKind.value_changed, holds] at oldTime
        rw [RecordKind.value_changed, holdsNew] at newTime
        exact ⟨(Content.integer.inj oldTime).symm, (Content.integer.inj newTime).symm⟩
      rw [replaced.row?_after]
      apply Accounted.stored _ holdsNew
      · intro column watched
        rcases replaced.told.replays watched with ⟨replays, inTime⟩
        rw [TrailFilter.choose_append]
        apply (leads column watched).append replays inTime
        · intro entry member
          exact times entry (List.mem_of_mem_filter member)
        · exact replaced.later changed renewed holds holdsNew
      · simp [once, Deed.insertedAs?]

/-- After a deed a longer trail accounts for the row of a record. -/
theorem Undergoes.accounted
    {deed : Deed}
    (does : Undergoes before deed after)
    (sound : before.Sound)
    (noted : before.Noted entries)
    (accounted : Accounted kind id earlier entries (before.row? kind id)) :
    ∃ more, after.Noted more ∧
      Accounted kind id (earlier ++ [deed]) more (after.row? kind id) := by
  cases concerned : deed.concerns kind id with
  | true =>
      simp only [Deed.concerns, Bool.decide_and, Bool.and_eq_true,
        decide_eq_true_eq] at concerned
      rcases concerned with ⟨rfl, rfl⟩
      cases does with
      | inserted inserted =>
          exact ⟨entries, inserted.noted noted, inserted.accounted accounted⟩
      | changed replaced =>
          exact ⟨_, replaced.noted sound noted, replaced.accounted accounted⟩
  | false =>
      rw [does.row?_of_other concerned]
      cases does with
      | inserted inserted =>
          exact ⟨entries, inserted.noted noted, accounted.of_other concerned fun _ => rfl⟩
      | changed replaced =>
          refine ⟨_, replaced.noted sound noted, accounted.of_other concerned ?_⟩
          intro column
          rw [TrailFilter.choose_append,
            replaced.told.choose_eq_nil (of_decide_eq_false concerned), List.append_nil]

/-- After a run the trail accounts for the row of a record. -/
theorem Evolves.accounted
    {deeds : List Deed}
    (evolves : Evolves before deeds after)
    (sound : before.Sound)
    (noted : before.Noted entries)
    (accounted : Accounted kind id earlier entries (before.row? kind id)) :
    ∃ more, after.Noted more ∧
      Accounted kind id (earlier ++ deeds) more (after.row? kind id) := by
  induction evolves generalizing earlier entries with
  | done =>
      rw [List.append_nil]
      exact ⟨entries, noted, accounted⟩
  | rests idle next ih =>
      apply ih (idle.sound sound) (idle.noted noted)
      rwa [idle.row?_eq]
  | undergoes does next ih =>
      -- Deeds to other records are accounted for as well: they add nothing to what is chosen.
      rcases does.accounted sound noted accounted with ⟨more, notedThen, accountedThen⟩
      have last := ih (does.sound sound) notedThen accountedThen
      rwa [List.append_assoc, List.singleton_append] at last

end Tables

/-! ## The main statement -/

/--
In every run from an empty store the entries about a watched column of a stored record,
as they are asked for, lead from the value with which the record was inserted to the
value that is stored: each changes the value that the one before it left, and none
begins before the one ahead of it was made.
-/
theorem trail_replays_to_the_store
    (source : Source)
    (events : List Event)
    (kind : RecordKind)
    (id : Uuid)
    (current : Contents)
    (stored :
      ((Session.founded source).after events).tables.contents? kind id = some current) :
    ∃ inserted,
      ((Session.founded source).history events).filterMap (Deed.insertedAs? kind id) =
        [inserted] ∧
      ∀ column ∈ kind.watchedColumns, ∃ entries,
        ((Session.founded source).after events).tables.entries
            (.ofColumn kind id column) = .ok entries ∧
        Replays (inserted.value column).shown entries (current.value column).shown ∧
        InTime entries := by
  have sound := Session.sound_founded source
  have noted : (Session.founded source).tables.Noted [] :=
    ⟨(Tables.rests_founded .empty).trail, .nil, by simp⟩
  have nothing : Accounted kind id [] [] ((Session.founded source).tables.row? kind id) := by
    rw [Session.row?_founded]
    exact .absent rfl fun _ => rfl
  obtain ⟨entries, notedAfter, accounted⟩ :=
    (Session.evolves_after _ events sound).accounted sound noted nothing
  rw [Tables.contents?, Option.map_eq_some_iff] at stored
  rcases stored with ⟨row, present, rfl⟩
  rw [present, List.nil_append] at accounted
  cases accounted with
  | @stored _ inserted _ once _ leads =>
      refine ⟨inserted, once, ?_⟩
      intro column watched
      have led := leads column watched
      exact ⟨_, notedAfter.entries_eq rfl, led.replays, led.inTime⟩

/-- The trail of the first owner, who was promoted, leads to what is stored. -/
theorem first_owner_is_replayed :
    ∃ events id current inserted,
      ((Session.founded Sample.source).after events).tables.contents? .user id =
        some current ∧
      ((Session.founded Sample.source).history events).filterMap
          (Deed.insertedAs? .user id) = [inserted] ∧
      ∀ column ∈ RecordKind.watchedColumns .user, ∃ entries,
        ((Session.founded Sample.source).after events).tables.entries
            (.ofColumn .user id column) = .ok entries ∧
        Replays (inserted.value column).shown entries (current.value column).shown ∧
        InTime entries := by
  rcases Sample.begins with ⟨created, session, creates, first⟩
  rcases first.owner with ⟨texts, users, -⟩
  let events : List Event := [.performed Sample.ring (.createOrg Sample.newOrg)]
  let id := created.owner.id.uuid
  have present : session.tables.row? .user id = some (UserRow.ofUser created.owner texts) :=
    Tables.row?_singleton users rfl
  have stored : ((Session.founded Sample.source).after events).tables.contents? .user id =
      some (RecordKind.contents .user (UserRow.ofUser created.owner texts)) := by
    rw [Session.after_cons, Session.after_nil, Event.step_performed creates,
      Tables.contents?, present]
    rfl
  obtain ⟨inserted, replayed⟩ :=
    trail_replays_to_the_store Sample.source events .user id _ stored
  exact ⟨events, id, _, inserted, stored, replayed⟩

end SealedDirectory
