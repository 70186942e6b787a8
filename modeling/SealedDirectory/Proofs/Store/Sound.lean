import SealedDirectory.Proofs.Store.Kind
import SealedDirectory.Proofs.Store.Numbers
import SealedDirectory.Proofs.Trail.Legible
import Mathlib.Data.List.Pairwise

/-!
# Sound tables

Tables that only the directory has written are sound.  Every row is the row of a record
or of an entry, no identifier occurs twice in a table, every signature that a row holds
is registered, the trail ascends, and the marks hold numbers.
-/

namespace SealedDirectory.Tables

/-! ## Registered signatures -/

def Registered (tables : Tables) (signature : Signature) : Prop :=
  ∃ issued ∈ tables.registry, issued.signature = .holds signature

/-- The tables with a further signature in the registry. -/
def registering (tables : Tables) (signature : Signature) (kind : RecordKind) (time : Int) :
    Tables :=
  { tables with
    registry := tables.registry ++ [⟨.holds signature, .holds kind, .holds time⟩] }

variable {tables after : Tables} {signature other : Signature} {kind : RecordKind} {time : Int}

theorem register_eq_ok :
    tables.register signature kind time = .ok after ↔
      ¬ tables.Registered signature ∧ after = tables.registering signature kind time := by
  have apart :
      Apart SignatureRow.uniques ⟨.holds signature, .holds kind, .holds time⟩
          tables.registry ↔
        ¬ tables.Registered signature := by
    simp [Apart, SignatureRow.uniques, Registered, Cell.clashes_eq_false]
  simp only [register, bind_eq_ok, insertRow_eq_ok, apart, registering, pure, Except.pure,
    Except.ok.injEq]
  constructor
  · rintro ⟨rows, ⟨fresh, rfl⟩, rfl⟩
    exact ⟨fresh, rfl⟩
  · rintro ⟨fresh, rfl⟩
    exact ⟨_, ⟨fresh, rfl⟩, rfl⟩

@[simp]
theorem registered_registering :
    (tables.registering signature kind time).Registered other ↔
      tables.Registered other ∨ signature = other := by
  simp only [Registered, registering, List.mem_append, List.mem_singleton, or_and_right,
    exists_or, exists_eq_left, Cell.holds.injEq]

@[simp]
theorem rows_registering (kind other : RecordKind) :
    (tables.registering signature kind time).rows other = tables.rows other := by
  cases other <;> rfl

/-! ## Numbers in rows, in the trail and in marks -/

/-- The marks of the sequences hold numbers. -/
def Marked (tables : Tables) : Prop :=
  ∀ sequence : Sequence, ∀ mark ∈ tables.marks, mark.name = .holds sequence.name →
    ∃ number, mark.value = .holds number

theorem numbered_iff :
    tables.Numbered ↔
      (∀ kind, ∀ row ∈ tables.rows kind, ∃ number, kind.orderCell row = .holds number) ∧
        (∀ row ∈ tables.trail, ∃ number, row.order = .holds number) ∧ tables.Marked := by
  constructor
  · intro numbered
    refine ⟨?_, ?_, ?_⟩
    · intro kind row member
      cases kind with
      | org =>
          apply numbered .entity (tables.orgs.map OrgRow.order) (by simp [usedNumbers])
          exact List.mem_map_of_mem member
      | user =>
          apply numbered .entity (tables.users.map UserRow.order) (by simp [usedNumbers])
          exact List.mem_map_of_mem member
    · intro row member
      apply numbered .trail (tables.trail.map EntryRow.order) (by simp [usedNumbers])
      exact List.mem_map_of_mem member
    · intro sequence mark member named
      have marked := numbered sequence
        ((tables.marks.filter fun mark => mark.name = .holds sequence.name).map MarkRow.value)
        (by cases sequence <;> simp [usedNumbers])
      apply marked
      exact List.mem_map_of_mem (by simpa [named] using member)
  · rintro ⟨rows, trail, marks⟩ sequence cells inTables cell member
    have marked : ∀ cell ∈ (tables.marks.filter fun mark =>
        mark.name = .holds sequence.name).map MarkRow.value, ∃ number, cell = .holds number := by
      intro cell member
      rcases List.mem_map.mp member with ⟨mark, chosen, rfl⟩
      simp only [List.mem_filter, decide_eq_true_eq] at chosen
      exact marks sequence mark chosen.1 chosen.2
    cases sequence with
    | entity =>
        simp only [usedNumbers, List.mem_cons, List.not_mem_nil, or_false] at inTables
        rcases inTables with rfl | rfl | rfl
        · rcases List.mem_map.mp member with ⟨row, stored, rfl⟩
          exact rows .org row stored
        · rcases List.mem_map.mp member with ⟨row, stored, rfl⟩
          exact rows .user row stored
        · exact marked cell member
    | trail =>
        simp only [usedNumbers, List.mem_cons, List.not_mem_nil, or_false] at inTables
        rcases inTables with rfl | rfl
        · rcases List.mem_map.mp member with ⟨row, stored, rfl⟩
          exact trail row stored
        · exact marked cell member

/-! ## Soundness -/

instance symm_signatureCell_ne (kind : RecordKind) :
    Std.Symm fun row other : kind.Row =>
      kind.signatureCell row ≠ kind.signatureCell other :=
  ⟨fun _ _ apart => apart.symm⟩

/-- Where identifiers differ, no other row has that of a row that stands among them. -/
theorem others_ne_of_distinct
    {kind : RecordKind} {id : Uuid} {row : kind.Row} {rows earlier later : List kind.Row}
    (distinct : rows.Pairwise fun row other => kind.idCell row ≠ kind.idCell other)
    (placed : rows = earlier ++ row :: later)
    (holds : kind.idCell row = .holds ⟨id⟩) :
    ∀ other ∈ earlier ++ later, kind.idCell other ≠ .holds ⟨id⟩ := by
  intro other isOther same
  rw [placed, List.pairwise_middle Ne.symm, List.pairwise_cons] at distinct
  exact distinct.1 other isOther (holds.trans same.symm)

/-- Tables that only the directory has written. -/
structure Sound (tables : Tables) : Prop where
  /-- Every row is the row of a record. -/
  written : ∀ kind, ∀ row ∈ tables.rows kind, kind.Written row
  distinct : ∀ kind, (tables.rows kind).Pairwise fun row other =>
    kind.idCell row ≠ kind.idCell other
  separate : ∀ kind, (tables.rows kind).Pairwise fun row other =>
    kind.signatureCell row ≠ kind.signatureCell other
  registered : ∀ kind, ∀ row ∈ tables.rows kind, ∀ signature,
    kind.signatureCell row = .holds signature → tables.Registered signature
  /-- The trail has entries in ascending order that can be read. -/
  noted : ∃ entries, tables.Noted entries
  marked : tables.Marked

namespace Sound

theorem empty : Tables.empty.Sound where
  written := by
    intro kind row member
    cases kind <;> cases member
  distinct := by
    intro kind
    cases kind <;> exact .nil
  separate := by
    intro kind
    cases kind <;> exact .nil
  registered := by
    intro kind row member
    cases kind <;> cases member
  noted := ⟨[], rfl, .nil, by simp⟩
  marked := by
    intro sequence mark member
    cases member

theorem numbered (sound : tables.Sound) : tables.Numbered := by
  rcases sound.noted with ⟨entries, noted⟩
  refine numbered_iff.mpr ⟨?_, ?_, sound.marked⟩
  · intro kind row member
    exact (sound.written kind row member).order_holds
  · intro row member
    rw [noted.trail] at member
    rcases List.mem_map.mp member with ⟨entry, -, rfl⟩
    exact ⟨entry.order, rfl⟩

/-- The row of an identifier is the one row that holds it. -/
theorem row?_eq_some_iff
    (sound : tables.Sound) {kind : RecordKind} {id : Uuid} {row : kind.Row} :
    tables.row? kind id = some row ↔
      row ∈ tables.rows kind ∧ kind.idCell row = .holds ⟨id⟩ := by
  have distinct := sound.distinct kind
  rw [row?]
  generalize tables.rows kind = rows at distinct
  induction rows with
  | nil => simp
  | cons first rest ih =>
      rcases List.pairwise_cons.mp distinct with ⟨apart, distinct⟩
      by_cases here : kind.idCell first = .holds ⟨id⟩
      · simp only [List.find?_cons, here, decide_true, Option.some.injEq, List.mem_cons]
        constructor
        · rintro rfl
          exact ⟨.inl rfl, here⟩
        · rintro ⟨rfl | inRest, same⟩
          · rfl
          · exact absurd (here.trans same.symm) (apart row inRest)
      · simp only [List.find?_cons, here, decide_false, ih distinct, List.mem_cons]
        constructor
        · rintro ⟨inRest, same⟩
          exact ⟨.inr inRest, same⟩
        · rintro ⟨rfl | inRest, same⟩
          · exact absurd same here
          · exact ⟨inRest, same⟩

/-- A row that stands among others is the one of its identifier. -/
theorem row?_of_placed
    (sound : tables.Sound) (kind : RecordKind) {id : Uuid} {row : kind.Row}
    {earlier later : List kind.Row}
    (placed : tables.rows kind = earlier ++ row :: later)
    (holds : kind.idCell row = .holds ⟨id⟩) :
    tables.row? kind id = some row := by
  apply sound.row?_eq_some_iff.mpr
  rw [placed]
  exact ⟨List.mem_append_cons_self, holds⟩

/-- No other row has the identifier of a row that stands among them. -/
theorem others_ne
    (sound : tables.Sound) (kind : RecordKind) {id : Uuid} {row : kind.Row}
    {earlier later : List kind.Row}
    (placed : tables.rows kind = earlier ++ row :: later)
    (holds : kind.idCell row = .holds ⟨id⟩) :
    ∀ other ∈ earlier ++ later, kind.idCell other ≠ .holds ⟨id⟩ :=
  others_ne_of_distinct (sound.distinct kind) placed holds

/-- Two rows of a table that hold one signature are the same row. -/
theorem eq_of_signature
    (sound : tables.Sound) {kind : RecordKind} {row other : kind.Row}
    (member : row ∈ tables.rows kind)
    (otherMember : other ∈ tables.rows kind)
    (same : kind.signatureCell row = kind.signatureCell other) :
    row = other := by
  by_contra differs
  exact (sound.separate kind).forall member otherMember differs same

/-- A signature that was never issued is in no row. -/
theorem clashes_fresh
    (sound : tables.Sound) (kind : RecordKind) {row : kind.Row}
    (member : row ∈ tables.rows kind)
    (fresh : ¬ tables.Registered signature) :
    (Cell.holds signature).clashes (kind.signatureCell row) = false :=
  Cell.clashes_eq_false.mpr fun holds =>
    fresh (sound.registered kind row member signature holds)

end Sound

end SealedDirectory.Tables
