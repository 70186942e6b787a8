import SealedDirectory.Proofs.Directory.Kept
import SealedDirectory.Proofs.Store.Numbers
import SealedDirectory.Proofs.Trail.Legible

/-!
# What is noted of a change

When a record is changed, the trail gets one entry for every watched column whose
stored value became another one, in the order of the watched columns and with numbers
that follow each other.  What is noted is computed from the records; it is stated here
in terms of the rows that are stored for them.
-/

namespace SealedDirectory

/-- An entry tells of one column in two states of the row of a record. -/
structure Entry.TellsOf (entry : Entry) (kind : RecordKind) (id : Uuid)
    (old new : Contents) : Prop where
  kind : entry.kind = kind
  entity : entry.entity = id.text
  oldValue : entry.details.old = (old.value entry.column).shown
  newValue : entry.details.new = (new.value entry.column).shown
  oldTime : old.value "mtime" = .integer entry.oldTime
  newTime : new.value "mtime" = .integer entry.newTime
  oldSignature : old.value "signature" = .text entry.oldSignature.bare
  newSignature : new.value "signature" = .text entry.newSignature.bare

/-- Entries tell of every watched column that differs in two states of a row, and of no other. -/
structure TellAll (kind : RecordKind) (id : Uuid) (old new : Contents)
    (entries : List Entry) : Prop where
  columns : entries.map Entry.column =
    kind.watchedColumns.filter fun column => old.value column ≠ new.value column
  each : ∀ entry ∈ entries, entry.TellsOf kind id old new

/-- No two entries of a change are about one column. -/
theorem TellAll.nodup
    {kind : RecordKind}
    {id : Uuid}
    {old new : Contents}
    {entries : List Entry}
    (told : TellAll kind id old new entries) :
    (entries.map Entry.column).Nodup := by
  rw [told.columns]
  exact kind.nodup_watchedColumns.filter _

/-- What a written row holds in a watched column is plain. -/
theorem RecordKind.Written.plain
    {kind : RecordKind}
    {row : kind.Row}
    (written : kind.Written row) :
    ∀ column ∈ kind.watchedColumns,
      Json.Reader.Plain ((kind.contents row).value column).shown := by
  have code (status : Status) : Json.Reader.Plain (.integer status.code) := by
    cases status <;> exact .integer ⟨by decide, by decide⟩
  intro column member
  cases kind with
  | org =>
      rcases written with ⟨org, rfl⟩
      simp only [watchedColumns, List.mem_cons, List.not_mem_nil, or_false] at member
      rcases member with rfl | rfl
      · exact .text _
      · exact code _
  | user =>
      rcases written with ⟨user, texts, rfl⟩
      simp only [watchedColumns, List.mem_cons, List.not_mem_nil, or_false] at member
      rcases member with rfl | rfl | rfl | rfl | rfl
      · exact .text _
      · exact .text _
      · exact .text _
      · exact .text _
      · exact code _

/-- Entries that tell of written rows can be read. -/
theorem TellAll.plain
    {kind : RecordKind}
    {id : Uuid}
    {old new : kind.Row}
    {entries : List Entry}
    (told : TellAll kind id (kind.contents old) (kind.contents new) entries)
    (wasWritten : kind.Written old)
    (isWritten : kind.Written new) :
    ∀ entry ∈ entries, entry.details.Plain := by
  intro entry member
  have watched : entry.column ∈ kind.watchedColumns := by
    apply List.mem_of_mem_filter
    rw [← told.columns]
    exact List.mem_map_of_mem member
  have tells := told.each entry member
  constructor
  · rw [tells.oldValue]
    exact wasWritten.plain _ watched
  · rw [tells.newValue]
    exact isWritten.plain _ watched

/-- Entries have numbers that follow each other from a first one on. -/
def Consecutive (first : Int) : List Entry → Prop
  | [] => True
  | entry :: rest => entry.order = first ∧ Consecutive (first + 1) rest

theorem Consecutive.first_le
    {first : Int} {entries : List Entry}
    (consecutive : Consecutive first entries) :
    ∀ entry ∈ entries, first ≤ entry.order := by
  induction entries generalizing first with
  | nil => simp
  | cons entry rest ih =>
      intro other member
      rcases List.mem_cons.mp member with rfl | inRest
      · exact Int.le_of_eq consecutive.1.symm
      · have bound := ih consecutive.2 other inRest
        omega

theorem Consecutive.ascending
    {first : Int} {entries : List Entry}
    (consecutive : Consecutive first entries) :
    entries.Pairwise fun entry later => entry.order < later.order := by
  induction entries generalizing first with
  | nil => exact .nil
  | cons entry rest ih =>
      refine .cons ?_ (ih consecutive.2)
      intro later member
      have bound := consecutive.2.first_le later member
      have order := consecutive.1
      omega

/-- The tables with further entries in the trail. -/
def Tables.noting (tables : Tables) (entries : List Entry) : Tables :=
  { tables with trail := tables.trail ++ entries.map EntryRow.ofEntry }

@[simp]
theorem Tables.noting_nil (tables : Tables) : tables.noting [] = tables := by
  simp [noting]

theorem Tables.noting_cons (tables : Tables) (entry : Entry) (entries : List Entry) :
    (tables.noting [entry]).noting entries = tables.noting (entry :: entries) := by
  simp [noting]

@[simp]
theorem Tables.rows_noting (tables : Tables) (entries : List Entry) (kind : RecordKind) :
    (tables.noting entries).rows kind = tables.rows kind := by
  cases kind <;> rfl

/-- An entry is about a change between two states of a record, and was made at a time. -/
structure Entry.Notes {R : Type} [Versioned R] (entry : Entry) (before after : R) (time : Int) :
    Prop where
  kind : entry.kind = Versioned.kind R
  entity : entry.entity = (Versioned.id after).bare
  oldTime : entry.oldTime = (Versioned.stamp before).changed
  newTime : entry.newTime = (Versioned.stamp after).changed
  oldSignature : entry.oldSignature = (Versioned.stamp before).signature
  newSignature : entry.newSignature = (Versioned.stamp after).signature
  time : entry.time = time

variable {R : Type} [Versioned R] {before after : R} {time : Int}

namespace Work

/-- One change is noted under the number that the sequence gives next. -/
theorem noteChange_gives
    {change : String × Details} {entry : Entry} {session later : Session}
    {stored : Int}
    (numbered : session.tables.Numbered)
    (knows : session.tables.Knows .trail stored)
    (given : (noteChange before after time change).Gives session entry later) :
    (entry.column, entry.details) = change ∧ entry.Notes before after time ∧
      entry.order = max (session.marks.last .trail) stored + 1 ∧
      later.marks.last .trail = entry.order ∧
      later.tables = session.tables.noting [entry] ∧
      later.tables.Numbered ∧ later.tables.Knows .trail entry.order := by
  simp only [noteChange, gives_bind, gives_pure] at given
  rcases given with ⟨number, drawn, draws, ⟨⟩, middle, executes, rfl, rfl⟩
  rcases gives_nextNumber.mp draws with ⟨found, asked, rfl, rfl⟩
  obtain rfl := knows.unique asked
  rcases gives_execute.mp executes with ⟨tables, inserted, rfl⟩
  simp only [Tables.insertEntry, bind_eq_ok] at inserted
  rcases inserted with ⟨rows, accepted, last⟩
  rcases insertRow_eq_ok.mp accepted with ⟨-, rfl⟩
  cases last
  refine ⟨rfl, ⟨rfl, rfl, rfl, rfl, rfl, rfl, rfl⟩, rfl, rfl, rfl, ?_⟩
  exact ⟨numbered.withEntry rfl, knows.withEntry numbered rfl (by simp only []; omega)⟩

/-- Changes are noted one after the other under numbers that follow each other. -/
theorem mapM_noteChange_gives
    {changes : List (String × Details)} {entries : List Entry} {session later : Session}
    {stored : Int}
    (numbered : session.tables.Numbered)
    (knows : session.tables.Knows .trail stored)
    (given : (changes.mapM (noteChange before after time)).Gives session entries later) :
    entries.map (fun entry => (entry.column, entry.details)) = changes ∧
      (∀ entry ∈ entries, entry.Notes before after time) ∧
      Consecutive (max (session.marks.last .trail) stored + 1) entries ∧
      later.tables = session.tables.noting entries := by
  induction changes generalizing session entries stored with
  | nil =>
      simp only [List.mapM_nil, gives_pure] at given
      rcases given with ⟨rfl, rfl⟩
      simp [Consecutive]
  | cons change changes ih =>
      simp only [List.mapM_cons, gives_bind, gives_pure] at given
      rcases given with ⟨entry, middle, first, rest, last, others, rfl, rfl⟩
      obtain ⟨told, notes, order, remembered, tables, numberedThen, knowsThen⟩ :=
        noteChange_gives numbered knows first
      obtain ⟨toldRest, notesRest, consecutive, tablesRest⟩ :=
        ih numberedThen knowsThen others
      rw [remembered, Int.max_self, order] at consecutive
      refine ⟨?_, ?_, ⟨order, consecutive⟩, ?_⟩
      · rw [List.map_cons, told, toldRest]
      · intro other member
        rcases List.mem_cons.mp member with rfl | inRest
        · exact notes
        · exact notesRest other inRest
      · rw [tablesRest, tables, Tables.noting_cons]

end Work

/-- The columns that are noted are those whose stored values differ. -/
theorem columns_changes
    [Kept R] {old new : (Versioned.kind R).Row}
    (showsOld : Shows before old)
    (showsNew : Shows after new) :
    (changes Versioned.watched before after).map Prod.fst =
      (Versioned.kind R).watchedColumns.filter fun column =>
        ((Versioned.kind R).contents old).value column ≠
          ((Versioned.kind R).contents new).value column := by
  have differ : ∀ watch ∈ Versioned.watched (R := R),
      (((Versioned.kind R).contents old).value watch.column =
          ((Versioned.kind R).contents new).value watch.column ↔
        watch.value before = watch.value after) := by
    intro watch member
    rw [← showsOld.watched watch member, ← showsNew.watched watch member]
    exact Content.shown_injective.eq_iff.symm
  rw [← Kept.columns (R := R), changes]
  generalize Versioned.watched (R := R) = watched at differ
  induction watched with
  | nil => rfl
  | cons watch rest ih =>
      have here := differ watch (by simp)
      have others := ih fun other inRest => differ other (by simp [inRest])
      by_cases same : watch.value before = watch.value after
      · simpa [Watch.change?, here.mpr same, same] using others
      · have apart := mt here.mp same
        simpa [Watch.change?, apart, same] using others

/-- What is noted of a change tells of the rows before and after it. -/
theorem Work.note_gives
    [Kept R] {old new : (Versioned.kind R).Row}
    {entries : List Entry} {session later : Session}
    (given : (Work.note before after).Gives session entries later)
    (numbered : session.tables.Numbered)
    (showsOld : Shows before old)
    (showsNew : Shows after new) :
    ∃ first stored, session.tables.Knows .trail stored ∧ stored < first ∧
      Consecutive first entries ∧
      TellAll (Versioned.kind R) (Versioned.id after).uuid
        ((Versioned.kind R).contents old) ((Versioned.kind R).contents new) entries ∧
      (∃ time, ∀ entry ∈ entries, entry.time = time) ∧
      later.tables = session.tables.noting entries := by
  simp only [Work.note, Work.gives_bind, Work.gives_now] at given
  rcases given with ⟨time, -, ⟨-, rfl⟩, noted⟩
  have clocked : (afterClock session).tables.Numbered := numbered
  rcases clocked.knows .trail with ⟨stored, knows⟩
  obtain ⟨told, notes, consecutive, tables⟩ :=
    mapM_noteChange_gives clocked knows noted
  have together : ∀ entry ∈ entries, entry.time = time :=
    fun entry member => (notes entry member).time
  refine ⟨_, stored, knows, by omega, consecutive, ⟨?_, ?_⟩, ⟨time, together⟩, tables⟩
  · rw [← columns_changes showsOld showsNew, ← told, List.map_map]
    rfl
  · intro entry member
    have noted := notes entry member
    have change : (entry.column, entry.details) ∈
        changes Versioned.watched before after := by
      rw [← told]
      exact List.mem_map_of_mem member
    rcases List.mem_filterMap.mp change with ⟨watch, watched, found⟩
    simp only [Watch.change?] at found
    split at found
    · cases found
    · simp only [Option.some.injEq, Prod.mk.injEq] at found
      rcases found with ⟨column, details⟩
      refine ⟨noted.kind, noted.entity, ?_, ?_, ?_, ?_, ?_, ?_⟩
      · rw [← details, ← column, showsOld.watched watch watched]
      · rw [← details, ← column, showsNew.watched watch watched]
      · rw [RecordKind.value_changed, showsOld.changed, noted.oldTime]
        rfl
      · rw [RecordKind.value_changed, showsNew.changed, noted.newTime]
        rfl
      · rw [RecordKind.value_signature, showsOld.signature, noted.oldSignature]
        rfl
      · rw [RecordKind.value_signature, showsNew.signature, noted.newSignature]
        rfl

end SealedDirectory
