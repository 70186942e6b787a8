import Mathlib.Data.List.Sort
import SealedDirectory.Directory.Users
import SealedDirectory.Proofs.Trail.Filled
import SealedDirectory.Proofs.Work.Outcome

/-!
# The trail as a plain list

What the table of the trail does with entries is compared with a list that entries are put
behind.  An entry is refused exactly if it collides with one that was accepted before, and a
refusal changes nothing at all.  A filter gives those entries that satisfy each of its
conditions, in ascending order and up to its limit.

A limit of sixty-four bits counts as no limit if it does not fit into sixty-three.  It
makes no difference, since a table has no more rows than that; this is the only thing that
has to be known about the size of the trail.
-/

namespace SealedDirectory

/-! ## Accepted entries -/

namespace Entry

/--
An entry takes the place of another one, or it tells of a change of the same column to the
same signature or from the same signature.
-/
def Collides
    (entry held : Entry) :
    Prop :=
  held.order = entry.order ∨
    (held.newSignature = entry.newSignature ∧ held.column = entry.column) ∨
    (held.oldSignature = entry.oldSignature ∧ held.column = entry.column)

instance (entry held : Entry) : Decidable (entry.Collides held) :=
  inferInstanceAs (Decidable (_ ∨ _ ∨ _))

/-- Puts an entry behind others unless it collides with one of them. -/
def enter
    (held : List Entry)
    (entry : Entry) :
    List Entry :=
  if ∃ other ∈ held, entry.Collides other then held else held ++ [entry]

/-- The entries among those offered that collide with none accepted before them. -/
def accepted
    (offered : List Entry) :
    List Entry :=
  offered.foldl enter []

variable {entry : Entry} {held offered : List Entry}

theorem enter_sublist
    (held : List Entry)
    (entry : Entry) :
    (enter held entry).Sublist (held ++ [entry]) := by
  unfold enter
  split
  · exact List.sublist_append_left _ _
  · exact List.Sublist.refl _

theorem foldl_enter_sublist
    (held offered : List Entry) :
    (offered.foldl enter held).Sublist (held ++ offered) := by
  induction offered generalizing held with
  | nil => simp
  | cons entry offered ih =>
      have more := (enter_sublist held entry).append (List.Sublist.refl offered)
      rw [List.append_assoc, List.singleton_append] at more
      exact (ih _).trans more

theorem accepted_sublist
    (offered : List Entry) :
    (accepted offered).Sublist offered :=
  foldl_enter_sublist [] offered

/-- No two entries of a list collide. -/
abbrev Separate
    (held : List Entry) :
    Prop :=
  held.Pairwise fun earlier entry => ¬ entry.Collides earlier

theorem separate_enter
    (separate : Separate held)
    (entry : Entry) :
    Separate (enter held entry) := by
  unfold enter
  split
  · exact separate
  · next free =>
      refine List.pairwise_append.mpr ⟨separate, List.pairwise_singleton _ _, ?_⟩
      intro earlier member other last collides
      rw [List.mem_singleton.mp last] at collides
      exact free ⟨earlier, member, collides⟩

theorem separate_foldl
    (separate : Separate held)
    (offered : List Entry) :
    Separate (offered.foldl enter held) := by
  induction offered generalizing held with
  | nil => exact separate
  | cons entry offered ih => exact ih (separate_enter separate entry)

/-- No two of the accepted entries have the same place. -/
theorem order_ne_of_accepted
    (offered : List Entry) :
    (accepted offered).Pairwise fun earlier entry => earlier.order ≠ entry.order :=
  (separate_foldl List.Pairwise.nil offered).imp fun free same => free (.inl same)

/-! ## Insertion -/

/-- The rules of the table are broken exactly by an entry that collides. -/
theorem apart_iff :
    Apart EntryRow.uniques (.ofEntry entry) (held.map EntryRow.ofEntry) ↔
      ¬ ∃ other ∈ held, entry.Collides other := by
  simp only [Apart, EntryRow.uniques, EntryRow.ofEntry, List.forall_mem_cons,
    List.forall_mem_map, List.not_mem_nil, IsEmpty.forall_iff, implies_true, and_true,
    Bool.and_eq_false_iff, Cell.clashes_eq_false, decide_eq_false_iff_not, Cell.holds.injEq,
    ne_eq, Collides]
  constructor
  · rintro ⟨old, new, place⟩ ⟨other, member, same | ⟨same, column⟩ | ⟨same, column⟩⟩
    · exact place other member same
    · exact (new other member).elim (· same) (· column.symm)
    · exact (old other member).elim (· same) (· column.symm)
  · intro free
    refine ⟨fun other member => ?_, fun other member => ?_, fun other member same => ?_⟩
    · by_contra both
      push Not at both
      exact free ⟨other, member, .inr (.inr ⟨both.1, both.2.symm⟩)⟩
    · by_contra both
      push Not at both
      exact free ⟨other, member, .inr (.inl ⟨both.1, both.2.symm⟩)⟩
    · exact free ⟨other, member, .inl same⟩

end Entry

open Entry

namespace Tables

variable {tables : Tables} {held : List Entry}

theorem insertEntry_free
    (trail : tables.trail = held.map EntryRow.ofEntry)
    {entry : Entry}
    (free : ¬ ∃ other ∈ held, entry.Collides other) :
    tables.insertEntry entry = .ok { tables with trail := tables.trail ++ [.ofEntry entry] } := by
  have apart := Entry.apart_iff.mpr free
  rw [← trail] at apart
  rw [insertEntry, insertRow_eq_ok.mpr ⟨apart, rfl⟩]
  rfl

/-- An entry that collides is refused for columns that must be unique. -/
theorem insertEntry_collides
    (trail : tables.trail = held.map EntryRow.ofEntry)
    {entry : Entry}
    (collides : ∃ other ∈ held, entry.Collides other) :
    ∃ columns ∈ EntryRow.uniques.map Unique.columns,
      tables.insertEntry entry = .error (.taken columns) := by
  have broken : brokenUnique? EntryRow.uniques (.ofEntry entry) tables.trail ≠ none := by
    rw [Ne, brokenUnique?_eq_none, trail, Entry.apart_iff]
    exact not_not.mpr collides
  obtain ⟨columns, named⟩ := Option.ne_none_iff_exists'.mp broken
  obtain ⟨unique, found, rfl⟩ := Option.map_eq_some_iff.mp named
  refine ⟨_, List.mem_map_of_mem (List.mem_of_find?_eq_some found), ?_⟩
  rw [insertEntry, insertRow, named]
  rfl

theorem trail_offer_enter
    (trail : tables.trail = held.map EntryRow.ofEntry)
    (entry : Entry) :
    (tables.offer entry).trail = (enter held entry).map EntryRow.ofEntry := by
  unfold enter
  split
  · next collides =>
      obtain ⟨columns, -, refused⟩ := insertEntry_collides trail collides
      simp [offer, refused, trail]
  · next free => simp [offer, insertEntry_free trail free, trail]

/-- The rows of the trail are those of the entries that were put behind one another. -/
theorem trail_offers_enter
    (trail : tables.trail = held.map EntryRow.ofEntry)
    (offered : List Entry) :
    (offered.foldl offer tables).trail = (offered.foldl enter held).map EntryRow.ofEntry := by
  induction offered generalizing tables held with
  | nil => exact trail
  | cons entry offered ih => exact ih (trail_offer_enter trail entry)

end Tables

/-! ## Conditions and limits -/

namespace TrailFilter

/-- An entry satisfies each of the conditions that are given. -/
def Wants
    (filter : TrailFilter)
    (entry : Entry) :
    Prop :=
  (∀ kind ∈ filter.kind, entry.kind = kind) ∧
    (∀ entity ∈ filter.entity, entry.entity = entity) ∧
    (∀ column ∈ filter.column, entry.column = column)

instance (filter : TrailFilter) (entry : Entry) : Decidable (filter.Wants entry) :=
  inferInstanceAs (Decidable (_ ∧ _ ∧ _))

/-- The first ones, as many as the limit says, or all of them without a limit. -/
def first
    {ρ : Type}
    (filter : TrailFilter)
    (rows : List ρ) :
    List ρ :=
  match filter.limit with
  | none => rows
  | some limit => rows.take limit

theorem first_sublist
    {ρ : Type}
    (filter : TrailFilter)
    (rows : List ρ) :
    (filter.first rows).Sublist rows := by
  unfold first
  split
  · exact List.Sublist.refl _
  · exact List.take_sublist _ _

theorem admits_iff
    (filter : TrailFilter)
    (entry : Entry) :
    filter.admits (.ofEntry entry) = decide (filter.Wants entry) := by
  have one {α : Type} [DecidableEq α] (wanted : Option α) (value : α) :
      (wanted.all fun asked => decide (asked = value)) = true ↔
        ∀ asked ∈ wanted, value = asked := by
    cases wanted with
    | none => simp
    | some asked => simp [eq_comm]
  rw [Bool.eq_iff_iff, decide_eq_true_iff, admits, Bool.and_eq_true, Bool.and_eq_true, and_assoc]
  exact and_congr (one _ _) (and_congr (one _ _) (one _ _))

/-- How many rows a table may have, since each has a positive number of sixty-three bits. -/
def rowLimit : Nat := Nat.pow 2 63 - 1

/-- A limit that does not count is beyond the end of every table. -/
theorem cut_eq_first
    {ρ : Type}
    {filter : TrailFilter}
    {rows : List ρ}
    (room : rows.length ≤ rowLimit) :
    filter.cut rows = filter.first rows := by
  unfold cut first
  cases filter.limit with
  | none => rfl
  | some limit =>
      by_cases counts : limit < Nat.pow 2 63
      · exact if_pos counts
      · have beyond : rows.length ≤ limit :=
          room.trans ((Nat.sub_le _ 1).trans (Nat.not_lt.mp counts))
        exact (if_neg counts).trans (List.take_of_length_le beyond).symm

/-- Entries in different places, put in the order of their places, ascend strictly. -/
theorem ascending_mergeSort
    {entries : List Entry}
    (places : entries.Pairwise fun earlier entry => earlier.order ≠ entry.order) :
    (entries.mergeSort fun entry later => entry.order ≤ later.order).Pairwise
      fun entry later => entry.order < later.order := by
  have sorted : (entries.mergeSort fun entry later => entry.order ≤ later.order).Pairwise
      fun entry later => decide (entry.order ≤ later.order) = true := by
    apply List.pairwise_mergeSort
    · intro first second third before after
      rw [decide_eq_true_eq] at before after ⊢
      exact Int.le_trans before after
    · intro first second
      rw [Bool.or_eq_true, decide_eq_true_eq, decide_eq_true_eq]
      exact Int.le_total _ _
  have distinct := (List.mergeSort_perm entries
    fun entry later => entry.order ≤ later.order).symm.pairwise places fun differ => differ.symm
  refine sorted.imp₂ ?_ distinct
  intro entry later atMost differ
  exact Int.lt_iff_le_and_ne.mpr ⟨of_decide_eq_true atMost, differ⟩

/--
Some entries of a list match a filter: those that it wants and no others, in strictly
ascending order.
-/
structure Matches
    (filter : TrailFilter)
    (held matching : List Entry) :
    Prop where
  wanted : matching.Perm (held.filter fun entry => filter.Wants entry)
  ascending : matching.Pairwise fun entry later => entry.order < later.order

/-- What a filter selects among entries in different places is the first of its matches. -/
theorem select_eq_first
    {held : List Entry}
    (places : held.Pairwise fun earlier entry => earlier.order ≠ entry.order)
    (room : held.length ≤ rowLimit)
    (filter : TrailFilter) :
    ∃ matching, filter.Matches held matching ∧ filter.select held = filter.first matching := by
  have same : (held.filter fun entry => filter.admits (.ofEntry entry)) =
      held.filter fun entry => filter.Wants entry :=
    List.filter_congr fun entry _ => filter.admits_iff entry
  have ordered := List.mergeSort_perm (held.filter fun entry => filter.Wants entry)
    fun entry later => entry.order ≤ later.order
  have fewer : ((held.filter fun entry => filter.Wants entry).mergeSort
      fun entry later => entry.order ≤ later.order).length ≤ rowLimit := by
    rw [ordered.length_eq]
    exact (List.length_filter_le _ _).trans room
  refine ⟨_, ⟨ordered, ascending_mergeSort (places.filter _)⟩, ?_⟩
  rw [select, same, cut_eq_first fewer]

end TrailFilter

/-! ## Sessions -/

namespace Work

/-- Puts an entry into the trail. -/
def insertEntry
    (entry : Entry) :
    Work Unit :=
  execute fun tables => tables.insertEntry entry

variable {session : Session} {held : List Entry} {entry : Entry}

theorem insertEntry_gives
    (trail : session.tables.trail = held.map EntryRow.ofEntry)
    (free : ¬ ∃ other ∈ held, entry.Collides other) :
    (insertEntry entry).Gives session ()
      { session with tables :=
          { session.tables with trail := session.tables.trail ++ [.ofEntry entry] } } :=
  gives_execute.mpr ⟨_, Tables.insertEntry_free trail free, rfl⟩

/-- A refused entry leaves the whole session as it is. -/
theorem insertEntry_fails
    (trail : session.tables.trail = held.map EntryRow.ofEntry)
    (collides : ∃ other ∈ held, entry.Collides other) :
    ∃ columns ∈ EntryRow.uniques.map Unique.columns,
      (insertEntry entry).Fails session (.taken columns) session := by
  obtain ⟨columns, rule, refused⟩ := Tables.insertEntry_collides trail collides
  refine ⟨columns, rule, ?_⟩
  rw [Fails, insertEntry, execute, runIn_answer, refused]
  rfl

/-- Putting in an entry leaves the tables to which it was offered. -/
theorem tables_insertEntry
    (entry : Entry)
    (session : Session) :
    ((insertEntry entry).runIn session).2 =
      { session with tables := session.tables.offer entry } := by
  rw [insertEntry, execute, runIn_answer, Tables.offer]
  cases session.tables.insertEntry entry with
  | error fault => rfl
  | ok after => rfl

end Work

namespace Session

/-- The session after entries were put into the trail, as far as they were not refused. -/
def entered
    (session : Session)
    (offered : List Entry) :
    Session :=
  offered.foldl (fun session entry => ((Work.insertEntry entry).runIn session).2) session

theorem entered_eq
    (session : Session)
    (offered : List Entry) :
    session.entered offered =
      { session with tables := offered.foldl Tables.offer session.tables } := by
  induction offered generalizing session with
  | nil => rfl
  | cons entry offered ih =>
      rw [entered, List.foldl_cons, Work.tables_insertEntry]
      exact ih _

variable {session : Session}

/-- The trail has the rows of the accepted entries. -/
theorem trail_entered
    (empty : session.tables.trail = [])
    (offered : List Entry) :
    (session.entered offered).tables.trail = (accepted offered).map EntryRow.ofEntry := by
  have vacant : session.tables.trail = ([] : List Entry).map EntryRow.ofEntry := empty
  rw [entered_eq]
  exact Tables.trail_offers_enter vacant offered

/-- A filter gives the first of the accepted entries that match it. -/
theorem trail_gives
    (empty : session.tables.trail = [])
    {offered : List Entry}
    (legible : ∀ entry ∈ offered, entry.details.Legible)
    (room : (accepted offered).length ≤ TrailFilter.rowLimit)
    (filter : TrailFilter) :
    ∃ matching,
      filter.Matches (accepted offered) matching ∧
      (Directory.trail filter).Gives (session.entered offered) (filter.first matching)
        (session.entered offered) := by
  obtain ⟨matching, isMatching, same⟩ :=
    TrailFilter.select_eq_first (order_ne_of_accepted offered) room filter
  refine ⟨matching, isMatching, Work.gives_ask.mpr ⟨?_, rfl⟩⟩
  rw [← same]
  exact Tables.entries_eq_select (trail_entered empty offered)
    (fun entry member => legible entry ((accepted_sublist offered).subset member)) filter

end Session

/--
Entries are put into an empty trail, one after the other and in any order.  The next one is
refused, for columns that must be unique and without any effect, if it collides with one that
was accepted, and otherwise it is put behind them.  A filter gives, in strictly ascending
order, the accepted entries that satisfy each of its conditions, up to its limit.
-/
theorem trail_is_the_list_of_accepted_entries
    {session : Session}
    (empty : session.tables.trail = [])
    {offered : List Entry}
    (legible : ∀ entry ∈ offered, entry.details.Legible)
    (room : (accepted offered).length ≤ TrailFilter.rowLimit) :
    (∀ entry : Entry,
      ((∃ other ∈ accepted offered, entry.Collides other) →
        ∃ columns ∈ EntryRow.uniques.map Unique.columns,
          (Work.insertEntry entry).Fails (session.entered offered) (.taken columns)
            (session.entered offered)) ∧
      ((¬ ∃ other ∈ accepted offered, entry.Collides other) →
        (Work.insertEntry entry).Gives (session.entered offered) ()
          (session.entered (offered ++ [entry])) ∧
        accepted (offered ++ [entry]) = accepted offered ++ [entry])) ∧
    ∀ filter : TrailFilter, ∃ matching,
      filter.Matches (accepted offered) matching ∧
      (Directory.trail filter).Gives (session.entered offered) (filter.first matching)
        (session.entered offered) := by
  have trail := Session.trail_entered empty offered
  refine ⟨fun entry => ⟨Work.insertEntry_fails trail, fun free => ⟨?_, ?_⟩⟩,
    Session.trail_gives empty legible room⟩
  · have given := Work.insertEntry_gives trail free
    have after : session.entered (offered ++ [entry]) =
        ((Work.insertEntry entry).runIn (session.entered offered)).2 := by
      rw [Session.entered, List.foldl_append]
      rfl
    rw [after, given]
    exact given
  · rw [accepted, List.foldl_append]
    exact if_neg free

/-- A store with an empty trail. -/
def Sample.vacant : Session :=
  .opened .empty (.ofSeed [] ⟨0, 0⟩)

/-- The third of three entries was refused, and it still is; a filter gives the first one. -/
theorem awkward_entries_are_listed_as_accepted :
    Sample.vacant.tables.trail = [] ∧
      (∀ entry ∈ Sample.awkwardEntries, entry.details.Legible) ∧
      (accepted Sample.awkwardEntries).length ≤ TrailFilter.rowLimit ∧
      accepted Sample.awkwardEntries = [Sample.awkward 2 "ü,", Sample.awkward 1 ""] ∧
      (∃ columns ∈ EntryRow.uniques.map Unique.columns,
        (Work.insertEntry (Sample.awkward 2 "\n")).Fails
          (Sample.vacant.entered Sample.awkwardEntries) (.taken columns)
          (Sample.vacant.entered Sample.awkwardEntries)) ∧
      ∃ matching,
        TrailFilter.Matches { column := some "ü,", limit := some 1 }
          (accepted Sample.awkwardEntries) matching ∧
        (Directory.trail { column := some "ü,", limit := some 1 }).Gives
          (Sample.vacant.entered Sample.awkwardEntries) (matching.take 1)
          (Sample.vacant.entered Sample.awkwardEntries) := by
  have empty : Sample.vacant.tables.trail = [] := rfl
  have two : accepted Sample.awkwardEntries = [Sample.awkward 2 "ü,", Sample.awkward 1 ""] := by
    decide
  have room : (accepted Sample.awkwardEntries).length ≤ TrailFilter.rowLimit := by
    rw [two]
    decide
  obtain ⟨enters, lists⟩ :=
    trail_is_the_list_of_accepted_entries empty Sample.legible_awkwardEntries room
  refine ⟨empty, Sample.legible_awkwardEntries, room, two, (enters _).1 ?_, lists _⟩
  rw [two]
  exact ⟨_, List.mem_cons_self .., .inl rfl⟩

end SealedDirectory
