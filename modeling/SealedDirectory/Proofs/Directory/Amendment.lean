import SealedDirectory.Proofs.Directory.Evolution

/-!
# Amendments

What an accepted change does to the tables is an amendment: a row in the place of another
one, a registered signature, and entries of the trail.  Amendments of different records
commute.  The numbers of the entries are left aside here, since they depend on the whole
trail, and so is the order of rows in the registry and in the trail.
-/

namespace SealedDirectory

open Tables

/-! ## Entries without their numbers -/

def Entry.unordered (entry : Entry) : Entry :=
  { entry with order := 0 }

def EntryRow.unordered (row : EntryRow) : EntryRow :=
  { row with order := .holds 0 }

theorem EntryRow.unordered_ofEntry (entry : Entry) :
    (ofEntry entry).unordered = ofEntry entry.unordered :=
  rfl

section

variable
  {R : Type}
  [Versioned R]

/-- The entry of a change of one column between two states, without a number. -/
def Entry.ofChange
    (before after : R)
    (time : Int)
    (change : String × Details) :
    Entry :=
  { kind := Versioned.kind R
    entity := (Versioned.id after).bare
    column := change.1
    oldTime := (Versioned.stamp before).changed
    newTime := (Versioned.stamp after).changed
    oldSignature := (Versioned.stamp before).signature
    newSignature := (Versioned.stamp after).signature
    details := change.2
    order := 0
    time }

theorem Entry.Notes.unordered_eq
    {entry : Entry}
    {before after : R}
    {time : Int}
    (notes : entry.Notes before after time) :
    entry.unordered = .ofChange before after time (entry.column, entry.details) := by
  rw [Entry.unordered, Entry.ofChange, Entry.mk.injEq]
  exact ⟨notes.kind, notes.entity, rfl, notes.oldTime, notes.newTime, notes.oldSignature,
    notes.newSignature, rfl, rfl, notes.time⟩

/-- The entries of a change are known beforehand but for their numbers. -/
theorem Work.note_unordered
    {before after : R}
    {entries : List Entry}
    {session later : Session}
    (given : (note before after).Gives session entries later)
    (numbered : session.tables.Numbered) :
    entries.map Entry.unordered =
        (changes Versioned.watched before after).map
          (.ofChange before after (session.source.clock session.drawn.clock).seconds) ∧
      later.tables = session.tables.noting entries := by
  simp only [note, gives_bind, gives_now] at given
  rcases given with ⟨time, -, ⟨rfl, rfl⟩, noted⟩
  have clocked : (afterClock session).tables.Numbered := numbered
  rcases clocked.knows .trail with ⟨stored, knows⟩
  obtain ⟨told, notes, -, tables⟩ := mapM_noteChange_gives clocked knows noted
  refine ⟨?_, tables⟩
  rw [← told, List.map_map]
  exact List.map_congr_left fun entry member => (notes entry member).unordered_eq

end

/-! ## Amendments -/

/-- What an accepted change does to the tables. -/
structure Amendment where
  kind : RecordKind
  id : Uuid
  /-- The row of the record from now on. -/
  row : kind.Row
  ofId : kind.idCell row = .holds ⟨id⟩
  issued : SignatureRow
  /-- The entries of the trail, without their numbers. -/
  entries : List Entry

namespace Amendment

/-- The record that is amended. -/
def target (amendment : Amendment) : RecordKind × Uuid :=
  (amendment.kind, amendment.id)

/-- A row of a kind is the row of the record that is amended. -/
def Concerns
    (amendment : Amendment)
    (kind : RecordKind)
    (row : kind.Row) :
    Prop :=
  amendment.kind = kind ∧ kind.idCell row = .holds ⟨amendment.id⟩

instance
    (amendment : Amendment)
    (kind : RecordKind)
    (row : kind.Row) :
    Decidable (amendment.Concerns kind row) :=
  inferInstanceAs (Decidable (_ ∧ _))

/-- The row of the record gives place to the new one; every other row stays. -/
def put
    (amendment : Amendment)
    (kind : RecordKind)
    (row : kind.Row) :
    kind.Row :=
  if concerned : amendment.Concerns kind row then concerned.1 ▸ amendment.row else row

variable {kind : RecordKind} {row : kind.Row}

theorem put_other
    {amendment : Amendment}
    (other : ¬ amendment.Concerns kind row) :
    amendment.put kind row = row :=
  dif_neg other

theorem idCell_put
    (amendment : Amendment)
    (kind : RecordKind)
    (row : kind.Row) :
    kind.idCell (amendment.put kind row) = kind.idCell row := by
  rw [put]
  split
  · next concerned =>
      rcases concerned with ⟨rfl, holds⟩
      exact amendment.ofId.trans holds.symm
  · rfl

/-- No two amendments of different records concern one row. -/
theorem Concerns.target_eq
    {first second : Amendment}
    (concerned : first.Concerns kind row)
    (also : second.Concerns kind row) :
    first.target = second.target := by
  rcases concerned with ⟨rfl, holds⟩
  have ids := Cell.holds.inj (holds.symm.trans also.2)
  exact Prod.ext also.1.symm (congrArg Id.uuid ids)

theorem concerns_put_iff
    {first second : Amendment} :
    first.Concerns kind (second.put kind row) ↔ first.Concerns kind row := by
  rw [Concerns, Concerns, idCell_put]

/-- Amendments of different records do not disturb each other in any row. -/
theorem put_comm
    {first second : Amendment}
    (apart : first.target ≠ second.target)
    (kind : RecordKind)
    (row : kind.Row) :
    first.put kind (second.put kind row) = second.put kind (first.put kind row) := by
  by_cases concerned : first.Concerns kind row
  · have other : ¬ second.Concerns kind row := fun also => apart (concerned.target_eq also)
    rw [put_other other, put_other (mt concerns_put_iff.mp other)]
  · rw [put_other concerned, put_other (mt concerns_put_iff.mp concerned)]

/-- Among rows with other identifiers one row gives place to the new one. -/
theorem map_put
    (amendment : Amendment)
    {earlier later : List amendment.kind.Row}
    {old : amendment.kind.Row}
    (holds : amendment.kind.idCell old = .holds ⟨amendment.id⟩)
    (others : ∀ row ∈ earlier ++ later, amendment.kind.idCell row ≠ .holds ⟨amendment.id⟩) :
    (earlier ++ old :: later).map (amendment.put amendment.kind) =
      earlier ++ amendment.row :: later := by
  have kept (rows : List amendment.kind.Row)
      (others : ∀ row ∈ rows, amendment.kind.idCell row ≠ .holds ⟨amendment.id⟩) :
      rows.map (amendment.put amendment.kind) = rows :=
    (List.map_congr_left fun row member =>
      put_other fun concerned => others row member concerned.2).trans (List.map_id rows)
  have placed : amendment.put amendment.kind old = amendment.row := dif_pos ⟨rfl, holds⟩
  rw [List.map_append, List.map_cons, placed,
    kept earlier fun row member => others row (List.mem_append_left _ member),
    kept later fun row member => others row (List.mem_append_right _ member)]

/-- Tables in which the row of a record gave place to the new one are amended in their rows. -/
theorem rows_restore
    (amendment : Amendment)
    {tables : Tables}
    {earlier later : List amendment.kind.Row}
    {old : amendment.kind.Row}
    (placed : tables.rows amendment.kind = earlier ++ old :: later)
    (holds : amendment.kind.idCell old = .holds ⟨amendment.id⟩)
    (others : ∀ row ∈ earlier ++ later, amendment.kind.idCell row ≠ .holds ⟨amendment.id⟩)
    (kind : RecordKind) :
    (amendment.kind.view.restore tables (earlier ++ amendment.row :: later)).rows kind =
      (tables.rows kind).map (amendment.put kind) := by
  by_cases same : kind = amendment.kind
  · subst same
    rw [Tables.rows_restore, placed, amendment.map_put holds others]
  · have kept (row : kind.Row) : amendment.put kind row = row :=
      put_other fun concerned => same concerned.1.symm
    rw [Tables.rows_restore_of_ne same, funext kept]
    exact (List.map_id _).symm

/-! ### Amendments that may be none -/

/-- The row after an amendment, if there was one. -/
def put?
    (amendment : Option Amendment)
    (kind : RecordKind)
    (row : kind.Row) :
    kind.Row :=
  amendment.elim row fun made => made.put kind row

theorem idCell_put?
    (amendment : Option Amendment)
    (kind : RecordKind)
    (row : kind.Row) :
    kind.idCell (put? amendment kind row) = kind.idCell row := by
  cases amendment with
  | none => rfl
  | some made => exact made.idCell_put kind row

theorem put?_other
    {amendment : Option Amendment}
    (other : ∀ made ∈ amendment, ¬ made.Concerns kind row) :
    put? amendment kind row = row := by
  cases amendment with
  | none => rfl
  | some made => exact put_other (other made rfl)

theorem put?_comm
    {first second : Option Amendment}
    (apart : ∀ one ∈ first, ∀ other ∈ second, one.target ≠ other.target)
    (kind : RecordKind)
    (row : kind.Row) :
    put? first kind (put? second kind row) = put? second kind (put? first kind row) := by
  cases first with
  | none => rfl
  | some one =>
      cases second with
      | none => rfl
      | some other => exact put_comm (apart one rfl other rfl) kind row

end Amendment

/-! ## Amended tables -/

namespace Tables

/-- The tables were amended, if there was an amendment, and rested otherwise. -/
structure Amended
    (amendment : Option Amendment)
    (before after : Tables) :
    Prop where
  rows : ∀ kind, after.rows kind = (before.rows kind).map (Amendment.put? amendment kind)
  registry : after.registry = before.registry ++ amendment.toList.map Amendment.issued
  trail : after.trail.map EntryRow.unordered =
    before.trail.map EntryRow.unordered ++
      amendment.toList.flatMap fun made => made.entries.map EntryRow.ofEntry
  /-- Every user stays in its organization. -/
  members : ∀ user, after.orgOfUser? user = before.orgOfUser? user

/-- The tables agree but for the order of signatures and entries and their numbers. -/
structure Agree (left right : Tables) : Prop where
  orgs : left.orgs = right.orgs
  users : left.users = right.users
  registry : left.registry.Perm right.registry
  trail : (left.trail.map EntryRow.unordered).Perm (right.trail.map EntryRow.unordered)

variable {before middle after : Tables}

theorem Rests.amended (idle : Rests before after) :
    Amended none before after where
  rows := by
    intro kind
    rw [idle.rows_eq]
    exact (List.map_id _).symm
  registry := by
    rw [idle.registry]
    exact (List.append_nil _).symm
  trail := by
    rw [idle.trail]
    exact (List.append_nil _).symm
  members := by
    intro user
    rw [orgOfUser?, idle.users]
    rfl

namespace Amended

variable {amendment first second : Option Amendment}

/-- The row of any other record is found as it was. -/
theorem row?_of_other
    (amended : Amended amendment before after)
    {kind : RecordKind}
    {id : Uuid}
    (other : ∀ made ∈ amendment, made.target ≠ (kind, id)) :
    after.row? kind id = before.row? kind id := by
  rw [row?, row?, amended.rows, List.find?_map]
  have sameIds : ((fun row => decide (kind.idCell row = .holds ⟨id⟩)) ∘
      Amendment.put? amendment kind) = fun row => decide (kind.idCell row = .holds ⟨id⟩) := by
    funext row
    rw [Function.comp_apply, Amendment.idCell_put?]
  rw [sameIds]
  cases found : (before.rows kind).find? fun row => kind.idCell row = .holds ⟨id⟩ with
  | none => rfl
  | some row =>
      have holds : kind.idCell row = .holds ⟨id⟩ := by simpa using List.find?_some found
      refine congrArg some (Amendment.put?_other ?_)
      rintro made isMade ⟨sameKind, sameId⟩
      have ids := Cell.holds.inj (holds.symm.trans sameId)
      exact other made isMade (Prod.ext sameKind (congrArg Id.uuid ids).symm)

/-- What is registered afterwards was so before, or was issued by the amendment. -/
theorem registered_of
    (amended : Amended amendment before after)
    {signature : Signature}
    (registered : after.Registered signature) :
    before.Registered signature ∨
      ∃ made ∈ amendment, made.issued.signature = .holds signature := by
  rcases registered with ⟨row, member, holds⟩
  rw [amended.registry, List.mem_append] at member
  rcases member with earlier | new
  · exact .inl ⟨row, earlier, holds⟩
  · rcases List.mem_map.mp new with ⟨made, isMade, rfl⟩
    exact .inr ⟨made, Option.mem_toList.mp isMade, holds⟩

/-- Amendments of different records lead to the same tables in either order. -/
theorem commute
    {other otherwise : Tables}
    (apart : ∀ one ∈ first, ∀ other ∈ second, one.target ≠ other.target)
    (firstly : Amended first before middle)
    (thenSecond : Amended second middle after)
    (secondly : Amended second before other)
    (thenFirst : Amended first other otherwise) :
    Agree after otherwise := by
  have rows (kind : RecordKind) : after.rows kind = otherwise.rows kind := by
    rw [thenSecond.rows, firstly.rows, thenFirst.rows, secondly.rows, List.map_map, List.map_map]
    refine List.map_congr_left fun row _ => ?_
    exact (Amendment.put?_comm apart kind row).symm
  have swapped {ρ : Type} (rows one two : List ρ) :
      (rows ++ one ++ two).Perm (rows ++ two ++ one) := by
    rw [List.append_assoc, List.append_assoc]
    exact List.perm_append_comm.append_left rows
  constructor
  · exact rows .org
  · exact rows .user
  · rw [thenSecond.registry, firstly.registry, thenFirst.registry, secondly.registry]
    exact swapped _ _ _
  · rw [thenSecond.trail, firstly.trail, thenFirst.trail, secondly.trail]
    exact swapped _ _ _

end Amended

end Tables

end SealedDirectory
