import SealedDirectory.Proofs.Directory.Run
import SealedDirectory.Proofs.Store.Sound
import SealedDirectory.Proofs.Trail.Noting

/-!
# How the tables evolve

Each deed takes the tables from one state to the next: a row is added or gives place to
another one, a signature that was never issued is registered, and the trail tells of the
change.  Between deeds the tables may rest, which touches at most the marks and the
remarks.

What a deed does to the row of a record, to the registry and to the trail is said here
once.  Nothing else about deeds is used later on, and sound tables stay sound.
-/

namespace SealedDirectory.Tables

/-! ## Deeds in the tables -/

/-- A record is inserted with a row, under a signature that was never issued. -/
structure Inserted (sight : Sight) (row : sight.kind.Row) (before after : Tables) :
    Prop where
  written : sight.kind.Written row
  id : sight.kind.idCell row = .holds ⟨sight.id⟩
  signature : sight.kind.signatureCell row = .holds sight.signature
  apart : Apart sight.kind.view.uniques row (before.rows sight.kind)
  fresh : ¬ before.Registered sight.signature
  /-- If the numbers in the store are numbers, the row has a number above those of all rows. -/
  last : before.Numbered → ∀ kind, ∀ other ∈ before.rows kind,
    (kind.orderCell other).Precedes (sight.kind.orderCell row)
  tables : ∃ time,
    after = (sight.kind.view.restore before (before.rows sight.kind ++ [row])).registering
      sight.signature sight.kind time

/-- The row of a record gives place to one with a signature that was never issued. -/
structure Replaced (sight : Sight) (signature : Signature) (entries : List Entry)
    (old new : sight.kind.Row) (before after : Tables) : Prop where
  id : sight.kind.idCell old = .holds ⟨sight.id⟩
  sameId : sight.kind.idCell new = sight.kind.idCell old
  sameOrder : sight.kind.orderCell new = sight.kind.orderCell old
  guarded : sight.kind.signatureCell old = .holds sight.signature
  written : sight.kind.Written new
  renewed : sight.kind.signatureCell new = .holds signature
  fresh : ¬ before.Registered signature
  later : ∀ time renewed, sight.kind.changedCell old = .holds time →
    sight.kind.changedCell new = .holds renewed → time ≤ renewed
  told : TellAll sight.kind sight.id (sight.kind.contents old) (sight.kind.contents new)
    entries
  numbered : ∃ first, Consecutive first entries ∧
    ∀ row ∈ before.trail, ∀ number, row.order = .holds number → number < first
  /-- The entries were made at one time. -/
  together : ∃ time, ∀ entry ∈ entries, entry.time = time
  tables : ∃ middle time, Overwritten sight.kind old new before middle ∧
    after = (middle.registering signature sight.kind time).noting entries

/-- A deed takes the tables from one state to another one. -/
inductive Undergoes (before : Tables) : Deed → Tables → Prop
  | inserted {sight : Sight} {row : sight.kind.Row} {after : Tables}
      (inserted : Inserted sight row before after) :
      Undergoes before (.inserted sight (sight.kind.contents row)) after
  | changed {sight : Sight} {signature : Signature} {entries : List Entry}
      {old new : sight.kind.Row} {after : Tables}
      (replaced : Replaced sight signature entries old new before after) :
      Undergoes before (.changed sight signature) after

/-- Records, trail and registry are left alone, and marks stay numbers. -/
structure Rests (before after : Tables) : Prop where
  orgs : after.orgs = before.orgs
  users : after.users = before.users
  trail : after.trail = before.trail
  registry : after.registry = before.registry
  marked : before.Marked → after.Marked

/-- The tables undergo deeds one after the other and may rest between them. -/
inductive Evolves : Tables → List Deed → Tables → Prop
  | done {tables : Tables} : Evolves tables [] tables
  | rests {before middle after : Tables} {deeds : List Deed}
      (idle : Rests before middle) (next : Evolves middle deeds after) :
      Evolves before deeds after
  | undergoes {before middle after : Tables} {deed : Deed} {deeds : List Deed}
      (does : Undergoes before deed middle) (next : Evolves middle deeds after) :
      Evolves before (deed :: deeds) after

namespace Evolves

variable {before middle after : Tables} {earlier later : List Deed}

theorem append
    (first : Evolves before earlier middle) (second : Evolves middle later after) :
    Evolves before (earlier ++ later) after := by
  induction first with
  | done => exact second
  | rests idle next ih => exact .rests idle (ih second)
  | undergoes does next ih => exact .undergoes does (ih second)

theorem of_rests (idle : Rests before after) : Evolves before [] after :=
  .rests idle .done

theorem of_undergoes {deed : Deed} (does : Undergoes before deed after) :
    Evolves before [deed] after :=
  .undergoes does .done

end Evolves

/-! ## What a deed does to the rows -/

variable {kind : RecordKind} {before after : Tables}

/-- Identifiers are unique, so a row that is apart from others has another identifier. -/
theorem id_ne_of_apart
    {row : kind.Row} {others : List kind.Row} {id : Uuid}
    (apart : Apart kind.view.uniques row others)
    (holds : kind.idCell row = .holds ⟨id⟩) :
    ∀ other ∈ others, kind.idCell other ≠ .holds ⟨id⟩ := by
  intro other member
  rcases kind.exists_unique_id with ⟨unique, rule, clash⟩
  have differs := apart unique rule other member
  rw [clash, holds] at differs
  exact Cell.clashes_eq_false.mp differs

theorem find?_eq_none_of_apart
    {row : kind.Row} {others : List kind.Row} {id : Uuid}
    (apart : Apart kind.view.uniques row others)
    (holds : kind.idCell row = .holds ⟨id⟩) :
    (others.find? fun other => kind.idCell other = .holds ⟨id⟩) = none := by
  rw [List.find?_eq_none]
  intro other member
  simpa using id_ne_of_apart apart holds other member

/-- A row that is written over is the row of its identifier, before as after. -/
theorem Overwritten.row?_eq
    {old new : kind.Row} {id : Uuid}
    (overwritten : Overwritten kind old new before after)
    (holds : kind.idCell old = .holds ⟨id⟩)
    (sameId : kind.idCell new = kind.idCell old) :
    before.row? kind id = some old ∧ after.row? kind id = some new := by
  rcases overwritten with ⟨earlier, later, placed, rfl, apart⟩
  have holdsNew : kind.idCell new = .holds ⟨id⟩ := sameId.trans holds
  have absent := find?_eq_none_of_apart apart holdsNew
  rw [List.find?_append, Option.or_eq_none_iff] at absent
  constructor
  · rw [row?, placed, List.find?_append, absent.1]
    simp [holds]
  · rw [row?, rows_restore, List.find?_append, absent.1]
    simp [holdsNew]

namespace Inserted

variable {sight : Sight} {row : sight.kind.Row}

theorem rows_eq (inserted : Inserted sight row before after) :
    after.rows sight.kind = before.rows sight.kind ++ [row] := by
  rcases inserted.tables with ⟨time, rfl⟩
  simp

theorem rows_of_ne (inserted : Inserted sight row before after) (other : kind ≠ sight.kind) :
    after.rows kind = before.rows kind := by
  rcases inserted.tables with ⟨time, rfl⟩
  rw [rows_registering, rows_restore_of_ne other]

theorem trail_eq (inserted : Inserted sight row before after) :
    after.trail = before.trail := by
  rcases inserted.tables with ⟨time, rfl⟩
  simp [registering]

theorem row?_before (inserted : Inserted sight row before after) :
    before.row? sight.kind sight.id = none :=
  find?_eq_none_of_apart inserted.apart inserted.id

theorem row?_after (inserted : Inserted sight row before after) :
    after.row? sight.kind sight.id = some row := by
  have absent := inserted.row?_before
  rw [row?] at absent ⊢
  rw [inserted.rows_eq, List.find?_append, absent]
  simp [inserted.id]

end Inserted

namespace Replaced

variable {sight : Sight} {signature : Signature} {entries : List Entry}
  {old new : sight.kind.Row}

theorem rows_eq (replaced : Replaced sight signature entries old new before after) :
    ∃ earlier later, before.rows sight.kind = earlier ++ old :: later ∧
      after.rows sight.kind = earlier ++ new :: later ∧
      Apart sight.kind.view.uniques new (earlier ++ later) := by
  rcases replaced.tables with ⟨middle, time, ⟨⟨earlier, later, placed, rfl, apart⟩⟩, rfl⟩
  refine ⟨earlier, later, placed, ?_, apart⟩
  rw [rows_noting, rows_registering, rows_restore]

theorem rows_of_ne
    (replaced : Replaced sight signature entries old new before after)
    (other : kind ≠ sight.kind) :
    after.rows kind = before.rows kind := by
  rcases replaced.tables with ⟨middle, time, ⟨⟨earlier, later, placed, rfl, apart⟩⟩, rfl⟩
  rw [rows_noting, rows_registering, rows_restore_of_ne other]

theorem trail_eq (replaced : Replaced sight signature entries old new before after) :
    after.trail = before.trail ++ entries.map EntryRow.ofEntry := by
  rcases replaced.tables with ⟨middle, time, ⟨⟨earlier, later, placed, rfl, apart⟩⟩, rfl⟩
  simp [noting, registering]

theorem newId (replaced : Replaced sight signature entries old new before after) :
    sight.kind.idCell new = .holds ⟨sight.id⟩ :=
  replaced.sameId.trans replaced.id

theorem row?_before (replaced : Replaced sight signature entries old new before after) :
    before.row? sight.kind sight.id = some old := by
  rcases replaced.tables with ⟨middle, time, overwritten, -⟩
  exact (overwritten.row?_eq replaced.id replaced.sameId).1

theorem row?_after (replaced : Replaced sight signature entries old new before after) :
    after.row? sight.kind sight.id = some new := by
  rcases replaced.tables with ⟨middle, time, overwritten, rfl⟩
  rw [row?, rows_noting, rows_registering]
  exact (overwritten.row?_eq replaced.id replaced.sameId).2

/-- In sound tables the row that gives place is one of the stored ones. -/
theorem old_mem_rows
    (replaced : Replaced sight signature entries old new before after)
    (sound : before.Sound) :
    old ∈ before.rows sight.kind :=
  (sound.row?_eq_some_iff.mp replaced.row?_before).1

/-- In sound tables the entries tell of plain values only. -/
theorem plain_entries
    (replaced : Replaced sight signature entries old new before after)
    (sound : before.Sound) :
    ∀ entry ∈ entries, entry.details.Plain :=
  replaced.told.plain (sound.written sight.kind old (replaced.old_mem_rows sound))
    replaced.written

/-- The entries name the signature that was expected and the one that was given. -/
theorem signatures_eq
    (replaced : Replaced sight signature entries old new before after) :
    ∀ entry ∈ entries,
      entry.oldSignature = sight.signature ∧ entry.newSignature = signature := by
  intro entry member
  have tells := replaced.told.each entry member
  have oldSignature := tells.oldSignature
  have newSignature := tells.newSignature
  rw [RecordKind.value_signature, replaced.guarded] at oldSignature
  rw [RecordKind.value_signature, replaced.renewed] at newSignature
  constructor
  · exact (Id.bare_injective (Content.text.inj oldSignature)).symm
  · exact (Id.bare_injective (Content.text.inj newSignature)).symm

end Replaced

/-! ## One kind of rows -/

/-- What a deed does to the rows of one kind: at most one is added or written over. -/
inductive Altered (kind : RecordKind) (deed : Deed) : List kind.Row → List kind.Row → Prop
  | kept {rows : List kind.Row} : Altered kind deed rows rows
  | added {rows : List kind.Row} {row : kind.Row}
      (ofKind : deed.sight.kind = kind)
      (written : kind.Written row)
      (id : kind.idCell row = .holds ⟨deed.sight.id⟩)
      (signature : kind.signatureCell row = .holds deed.signature)
      (apart : Apart kind.view.uniques row rows) :
      Altered kind deed rows (rows ++ [row])
  | overwritten {earlier later : List kind.Row} {old new : kind.Row}
      (ofKind : deed.sight.kind = kind)
      (written : kind.Written new)
      (id : kind.idCell old = .holds ⟨deed.sight.id⟩)
      (sameId : kind.idCell new = kind.idCell old)
      (signature : kind.signatureCell new = .holds deed.signature) :
      Altered kind deed (earlier ++ old :: later) (earlier ++ new :: later)

theorem Undergoes.altered
    {deed : Deed}
    (does : Undergoes before deed after)
    (kind : RecordKind) :
    Altered kind deed (before.rows kind) (after.rows kind) := by
  cases does with
  | @inserted sight row after inserted =>
      by_cases sameKind : sight.kind = kind
      · subst sameKind
        rw [inserted.rows_eq]
        exact .added rfl inserted.written inserted.id inserted.signature inserted.apart
      · rw [inserted.rows_of_ne (Ne.symm sameKind)]
        exact .kept
  | @changed sight signature entries old new after replaced =>
      by_cases sameKind : sight.kind = kind
      · subst sameKind
        rcases replaced.rows_eq with ⟨earlier, later, placedOld, placedNew, -⟩
        rw [placedOld, placedNew]
        exact .overwritten rfl replaced.written replaced.id replaced.sameId replaced.renewed
      · rw [replaced.rows_of_ne (Ne.symm sameKind)]
        exact .kept

namespace Altered

variable {deed : Deed} {rows next : List kind.Row}

/-- The only new row is a written one of the deed's kind that holds the deed's signature. -/
theorem mem
    (altered : Altered kind deed rows next)
    {row : kind.Row}
    (member : row ∈ next) :
    row ∈ rows ∨ (kind.Written row ∧ deed.sight.kind = kind ∧
      kind.signatureCell row = .holds deed.signature) := by
  cases altered with
  | kept => exact .inl member
  | added ofKind written id signature apart =>
      rw [List.mem_append, List.mem_singleton] at member
      rcases member with old | rfl
      · exact .inl old
      · exact .inr ⟨written, ofKind, signature⟩
  | overwritten ofKind written id sameId signature =>
      rw [List.mem_append, List.mem_cons] at member ⊢
      rcases member with inEarlier | rfl | inLater
      · exact .inl (.inl inEarlier)
      · exact .inr ⟨written, ofKind, signature⟩
      · exact .inl (.inr (.inr inLater))

/-- The row of another record is found where it was. -/
theorem find?_of_other
    (altered : Altered kind deed rows next)
    {id : Uuid}
    (other : deed.concerns kind id = false) :
    (next.find? fun row => kind.idCell row = .holds ⟨id⟩) =
      rows.find? fun row => kind.idCell row = .holds ⟨id⟩ := by
  simp only [Deed.concerns, Bool.decide_and, Bool.and_eq_false_iff,
    decide_eq_false_iff_not] at other
  cases altered with
  | kept => rfl
  | added ofKind written holds signature apart =>
      have differs : deed.sight.id ≠ id := by simpa [ofKind] using other
      rw [List.find?_append]
      simp [holds, differs]
  | overwritten ofKind written holds sameId signature =>
      have differs : deed.sight.id ≠ id := by simpa [ofKind] using other
      rw [List.find?_append, List.find?_append]
      simp [holds, sameId, differs]

theorem distinct
    (altered : Altered kind deed rows next)
    (distinct : rows.Pairwise fun row other => kind.idCell row ≠ kind.idCell other) :
    next.Pairwise fun row other => kind.idCell row ≠ kind.idCell other := by
  cases altered with
  | kept => exact distinct
  | @added rows row ofKind written id signature apart =>
      rw [List.pairwise_append]
      refine ⟨distinct, List.pairwise_singleton _ _, ?_⟩
      intro row member other isNew
      rw [List.mem_singleton.mp isNew, id]
      exact id_ne_of_apart apart id row member
  | @overwritten earlier later old new ofKind written id sameId signature =>
      have sameIds : (earlier ++ new :: later).map kind.idCell =
          (earlier ++ old :: later).map kind.idCell := by
        rw [List.map_append, List.map_append, List.map_cons, List.map_cons, sameId]
      have differ := List.pairwise_map.mpr distinct
      rw [← sameIds] at differ
      exact List.pairwise_map.mp differ

/-- If no row holds the signature of the deed, signatures stay distinct. -/
theorem separate
    (altered : Altered kind deed rows next)
    (unissued : ∀ row ∈ rows, kind.signatureCell row ≠ .holds deed.signature)
    (separate : rows.Pairwise fun row other =>
      kind.signatureCell row ≠ kind.signatureCell other) :
    next.Pairwise fun row other =>
      kind.signatureCell row ≠ kind.signatureCell other := by
  cases altered with
  | kept => exact separate
  | added ofKind written id signature apart =>
      rw [List.pairwise_append]
      refine ⟨separate, List.pairwise_singleton _ _, ?_⟩
      intro row member other isNew
      rw [List.mem_singleton.mp isNew, signature]
      exact unissued row member
  | overwritten ofKind written id sameId signature =>
      rw [List.pairwise_middle Ne.symm, List.pairwise_cons] at separate ⊢
      refine ⟨?_, separate.2⟩
      intro row member
      rw [signature]
      apply Ne.symm
      apply unissued
      rcases List.mem_append.mp member with inEarlier | inLater
      · exact List.mem_append_left _ inEarlier
      · exact List.mem_append_right _ (List.mem_cons_of_mem _ inLater)

end Altered

/-! ## What a deed does to the registry and to other records -/

@[simp]
theorem registered_noting {tables : Tables} {entries : List Entry} {signature : Signature} :
    (tables.noting entries).Registered signature ↔ tables.Registered signature :=
  Iff.rfl

@[simp]
theorem registered_restore
    {tables : Tables} {rows : List kind.Row} {signature : Signature} :
    (kind.view.restore tables rows).Registered signature ↔ tables.Registered signature := by
  rw [Registered, registry_restore, Registered]

namespace Undergoes

variable {deed : Deed}

/-- A deed issues its signature, which was never issued before, and no other one. -/
theorem fresh (does : Undergoes before deed after) : ¬ before.Registered deed.signature := by
  cases does with
  | inserted inserted => exact inserted.fresh
  | changed replaced => exact replaced.fresh

theorem registered_iff (does : Undergoes before deed after) (signature : Signature) :
    after.Registered signature ↔ before.Registered signature ∨ deed.signature = signature := by
  cases does with
  | inserted inserted =>
      rcases inserted.tables with ⟨time, rfl⟩
      rw [registered_registering, registered_restore]
      rfl
  | changed replaced =>
      rcases replaced.tables with ⟨middle, time, ⟨⟨earlier, later, placed, rfl, apart⟩⟩, rfl⟩
      rw [registered_noting, registered_registering, registered_restore]
      rfl

/-- After a deed the record has a row under the signature of the deed. -/
theorem row?_of_concerned
    (does : Undergoes before deed after) {id : Uuid}
    (concerned : deed.concerns kind id = true) :
    ∃ row, after.row? kind id = some row ∧
      kind.signatureCell row = .holds deed.signature := by
  simp only [Deed.concerns, Bool.decide_and, Bool.and_eq_true, decide_eq_true_eq] at concerned
  rcases concerned with ⟨rfl, rfl⟩
  cases does with
  | inserted inserted => exact ⟨_, inserted.row?_after, inserted.signature⟩
  | changed replaced => exact ⟨_, replaced.row?_after, replaced.renewed⟩

/-- A deed leaves the rows of all other records alone. -/
theorem row?_of_other
    (does : Undergoes before deed after) {id : Uuid}
    (other : deed.concerns kind id = false) :
    after.row? kind id = before.row? kind id :=
  (does.altered kind).find?_of_other other

end Undergoes

/-! ## Sound tables stay sound -/

theorem Inserted.noted
    {sight : Sight} {row : sight.kind.Row} {entries : List Entry}
    (inserted : Inserted sight row before after)
    (noted : before.Noted entries) :
    after.Noted entries :=
  ⟨inserted.trail_eq.trans noted.trail, noted.ascending, noted.plain⟩

/-- Entries that are numbered after all others keep the trail ascending. -/
theorem Replaced.noted
    {sight : Sight} {signature : Signature} {entries earlier : List Entry}
    {old new : sight.kind.Row}
    (replaced : Replaced sight signature entries old new before after)
    (sound : before.Sound)
    (noted : before.Noted earlier) :
    after.Noted (earlier ++ entries) := by
  rcases replaced.numbered with ⟨first, consecutive, above⟩
  refine ⟨?_, List.pairwise_append.mpr ⟨noted.ascending, consecutive.ascending, ?_⟩, ?_⟩
  · rw [replaced.trail_eq, noted.trail, List.map_append]
  · intro entry member other added
    have below : entry.order < first := by
      apply above (.ofEntry entry) _ entry.order rfl
      rw [noted.trail]
      exact List.mem_map_of_mem member
    have atLeast := consecutive.first_le other added
    omega
  · intro entry member
    rcases List.mem_append.mp member with old | new
    · exact noted.plain entry old
    · exact replaced.plain_entries sound entry new

namespace Rests

theorem rows_eq (idle : Rests before after) (kind : RecordKind) :
    after.rows kind = before.rows kind := by
  cases kind with
  | org => exact idle.orgs
  | user => exact idle.users

theorem row?_eq (idle : Rests before after) (kind : RecordKind) (id : Uuid) :
    after.row? kind id = before.row? kind id := by
  rw [row?, row?, idle.rows_eq]

theorem registered_iff (idle : Rests before after) (signature : Signature) :
    after.Registered signature ↔ before.Registered signature := by
  rw [Registered, Registered, idle.registry]

theorem noted
    (idle : Rests before after)
    {entries : List Entry}
    (noted : before.Noted entries) :
    after.Noted entries :=
  ⟨idle.trail.trans noted.trail, noted.ascending, noted.plain⟩

theorem sound (idle : Rests before after) (sound : before.Sound) : after.Sound where
  written := by
    intro kind
    rw [idle.rows_eq]
    exact sound.written kind
  distinct := by
    intro kind
    rw [idle.rows_eq]
    exact sound.distinct kind
  separate := by
    intro kind
    rw [idle.rows_eq]
    exact sound.separate kind
  registered := by
    intro kind row member signature holds
    rw [idle.rows_eq] at member
    exact (idle.registered_iff signature).mpr (sound.registered kind row member signature holds)
  noted := by
    rcases sound.noted with ⟨entries, noted⟩
    exact ⟨entries, idle.noted noted⟩
  marked := idle.marked sound.marked

end Rests

namespace Undergoes

variable {deed : Deed}

theorem marks_eq (does : Undergoes before deed after) : after.marks = before.marks := by
  cases does with
  | inserted inserted =>
      rcases inserted.tables with ⟨time, rfl⟩
      simp [registering]
  | changed replaced =>
      rcases replaced.tables with ⟨middle, time, ⟨⟨earlier, later, placed, rfl, apart⟩⟩, rfl⟩
      simp [noting, registering]

theorem noted
    (does : Undergoes before deed after)
    (sound : before.Sound) :
    ∃ entries, after.Noted entries := by
  rcases sound.noted with ⟨entries, noted⟩
  cases does with
  | inserted inserted => exact ⟨entries, inserted.noted noted⟩
  | changed replaced => exact ⟨_, replaced.noted sound noted⟩

theorem sound (does : Undergoes before deed after) (sound : before.Sound) : after.Sound where
  written := by
    intro kind row member
    rcases (does.altered kind).mem member with old | ⟨written, -⟩
    · exact sound.written kind row old
    · exact written
  distinct := fun kind => (does.altered kind).distinct (sound.distinct kind)
  separate := by
    intro kind
    apply (does.altered kind).separate _ (sound.separate kind)
    intro row member holds
    exact does.fresh (sound.registered kind row member _ holds)
  registered := by
    intro kind row member signature holds
    rw [does.registered_iff]
    rcases (does.altered kind).mem member with old | ⟨-, -, renewed⟩
    · exact .inl (sound.registered kind row old signature holds)
    · rw [renewed, Cell.holds.injEq] at holds
      exact .inr holds
  noted := does.noted sound
  marked := by
    rw [Marked, does.marks_eq]
    exact sound.marked

end Undergoes

theorem Evolves.sound
    {deeds : List Deed}
    (evolves : Evolves before deeds after) (sound : before.Sound) :
    after.Sound := by
  induction evolves with
  | done => exact sound
  | rests idle next ih => exact ih (idle.sound sound)
  | undergoes does next ih => exact ih (does.sound sound)

end SealedDirectory.Tables
