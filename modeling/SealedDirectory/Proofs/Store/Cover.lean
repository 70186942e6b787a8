import SealedDirectory.Proofs.Store.Sound

/-!
# Numbers that the store covers

A number is covered if the store knows of one that is at least as great: in a row, in the
trail or in a mark.  What is drawn next is above every covered number, so a number that is
covered once and for all can never be drawn again.

Every statement of the directory keeps what is covered: it adds rows or writes over them,
and a row that is written over stays in its place.
-/

namespace SealedDirectory

/-- A cell holds a number, and the other one holds a greater number. -/
def Cell.Precedes (cell next : Cell Int) : Prop :=
  ∃ number later, cell = .holds number ∧ next = .holds later ∧ number < later

/-- What is the same in changed rows is the same in the table after the change. -/
theorem map_updateRows
    {ρ α : Type}
    {uniques : List (Unique ρ)}
    {select : ρ → Bool}
    {change : ρ → Except Fault ρ}
    {rows done result : List ρ}
    {count : Nat}
    (f : ρ → α)
    (same : ∀ row changed, change row = .ok changed → f changed = f row)
    (updated : updateRows uniques select change done rows = .ok (result, count)) :
    result.map f = (done ++ rows).map f := by
  induction rows generalizing done result count with
  | nil =>
      cases updated
      rw [List.append_nil]
  | cons row rest ih =>
      rw [updateRows] at updated
      split at updated
      · rcases bind_eq_ok.mp updated with ⟨changed, changes, continued⟩
        split at continued
        · cases continued
        · rcases bind_eq_ok.mp continued with ⟨⟨further, more⟩, there, last⟩
          cases last
          rw [ih there]
          simp [same row changed changes]
      · rw [ih updated]
        simp

namespace Tables

/-- The store knows a number of a sequence that is at least as great. -/
inductive Covers (tables : Tables) : Sequence → Int → Prop
  | row
      {kind : RecordKind}
      {row : kind.Row}
      {used number : Int}
      (stored : row ∈ tables.rows kind)
      (holds : kind.orderCell row = .holds used)
      (reaches : number ≤ used) :
      Covers tables .entity number
  | entry
      {row : EntryRow}
      {used number : Int}
      (stored : row ∈ tables.trail)
      (holds : row.order = .holds used)
      (reaches : number ≤ used) :
      Covers tables .trail number
  | mark
      {sequence : Sequence}
      {mark : MarkRow}
      {used number : Int}
      (stored : mark ∈ tables.marks)
      (named : mark.name = .holds sequence.name)
      (holds : mark.value = .holds used)
      (reaches : number ≤ used) :
      Covers tables sequence number

/-- What is covered is not above the greatest number that is known. -/
theorem Covers.le
    {tables : Tables}
    {sequence : Sequence}
    {number top : Int}
    (covers : tables.Covers sequence number)
    (knows : tables.Knows sequence top) :
    number ≤ top := by
  cases covers with
  | @row kind row used number stored holds reaches =>
      have inTables : (tables.rows kind).map kind.orderCell ∈ tables.usedNumbers .entity := by
        cases kind
        · exact List.mem_cons_self ..
        · exact List.mem_cons_of_mem _ (List.mem_cons_self ..)
      exact Int.le_trans reaches
        (knows.above _ inTables used (holds ▸ List.mem_map_of_mem stored))
  | @entry row used number stored holds reaches =>
      exact Int.le_trans reaches
        (knows.above _ (mem_usedNumbers_trail.mpr (.inl rfl)) used
          (holds ▸ List.mem_map_of_mem stored))
  | @mark sequence mark used number stored named holds reaches =>
      have inTables :
          (tables.marks.filter fun mark => mark.name = .holds sequence.name).map
            MarkRow.value ∈ tables.usedNumbers sequence := by
        cases sequence <;> simp [usedNumbers]
      have chosen : mark ∈ tables.marks.filter fun mark => mark.name = .holds sequence.name := by
        simpa using ⟨stored, named⟩
      exact Int.le_trans reaches
        (knows.above _ inTables used (holds ▸ List.mem_map_of_mem chosen))

/-! ## Statements -/

/-- Between two states of the store no covered number is lost, and numbers stay numbers. -/
structure Keeps (before after : Tables) : Prop where
  numbered : before.Numbered → after.Numbered
  covers : ∀ sequence number, before.Covers sequence number → after.Covers sequence number

namespace Keeps

variable {before middle after : Tables}

theorem refl (tables : Tables) : Keeps tables tables :=
  ⟨fun numbered => numbered, fun _ _ covers => covers⟩

theorem trans (first : Keeps before middle) (second : Keeps middle after) :
    Keeps before after :=
  ⟨fun numbered => second.numbered (first.numbered numbered),
    fun sequence number covers => second.covers sequence number (first.covers sequence number covers)⟩

/-- Records and trail stay as they are, and each mark is kept or gives place to a higher one. -/
theorem of_marks
    (rows : ∀ kind, after.rows kind = before.rows kind)
    (trail : after.trail = before.trail)
    (marked : before.Marked → after.Marked)
    (raised : ∀ mark ∈ before.marks, ∀ used, mark.value = .holds used →
      ∃ higher ∈ after.marks, higher.name = mark.name ∧
        ∃ reached, higher.value = .holds reached ∧ used ≤ reached) :
    Keeps before after where
  numbered := by
    intro numbered
    rcases numbered_iff.mp numbered with ⟨inRows, inTrail, inMarks⟩
    refine numbered_iff.mpr ⟨?_, ?_, marked inMarks⟩
    · intro kind
      rw [rows]
      exact inRows kind
    · rwa [trail]
  covers := by
    intro sequence number covers
    cases covers with
    | row stored holds reaches => exact .row (by rwa [rows]) holds reaches
    | entry stored holds reaches => exact .entry (by rwa [trail]) holds reaches
    | mark stored named holds reaches =>
        rcases raised _ stored _ holds with ⟨higher, kept, sameName, reached, value, above⟩
        exact .mark kept (sameName.trans named) value (Int.le_trans reaches above)

/-- The rows of one kind keep their numbers, and new rows have numbers. -/
theorem of_restore
    {kind : RecordKind}
    {rows : List kind.Row}
    (kept : (before.rows kind).map kind.orderCell ⊆ rows.map kind.orderCell)
    (numbers : (∀ row ∈ before.rows kind, ∃ number, kind.orderCell row = .holds number) →
      ∀ row ∈ rows, ∃ number, kind.orderCell row = .holds number) :
    Keeps before (kind.view.restore before rows) where
  numbered := by
    intro numbered
    rcases numbered_iff.mp numbered with ⟨inRows, inTrail, inMarks⟩
    refine numbered_iff.mpr ⟨?_, ?_, ?_⟩
    · intro other
      by_cases sameKind : other = kind
      · subst sameKind
        rw [rows_restore]
        exact numbers (inRows other)
      · rw [rows_restore_of_ne sameKind]
        exact inRows other
    · rwa [trail_restore]
    · rwa [Marked, marks_restore]
  covers := by
    intro sequence number covers
    cases covers with
    | @row other row used number stored holds reaches =>
        by_cases sameKind : other = kind
        · subst sameKind
          rcases List.mem_map.mp (kept (List.mem_map_of_mem stored)) with ⟨new, inRows, same⟩
          exact .row (by rwa [rows_restore]) (same.trans holds) reaches
        · exact .row (by rwa [rows_restore_of_ne sameKind]) holds reaches
    | entry stored holds reaches => exact .entry (by rwa [trail_restore]) holds reaches
    | mark stored named holds reaches =>
        exact .mark (by rwa [marks_restore]) named holds reaches

theorem of_insertRow
    (kind : RecordKind)
    {row : kind.Row}
    {rows : List kind.Row}
    (holds : ∃ own, kind.orderCell row = .holds own)
    (inserted : insertRow kind.view.uniques row (before.rows kind) = .ok rows) :
    Keeps before (kind.view.restore before rows) := by
  rcases insertRow_eq_ok.mp inserted with ⟨-, rfl⟩
  apply of_restore
  · rw [List.map_append]
    exact List.subset_append_left _ _
  · intro numbers new member
    rcases List.mem_append.mp member with old | isNew
    · exact numbers new old
    · rwa [List.mem_singleton.mp isNew]

theorem of_updateRows
    (kind : RecordKind)
    {select : kind.Row → Bool}
    {change : kind.Row → Except Fault kind.Row}
    {rows : List kind.Row}
    {count : Nat}
    (same : ∀ row changed, change row = .ok changed →
      kind.orderCell changed = kind.orderCell row)
    (updated :
      updateRows kind.view.uniques select change [] (before.rows kind) = .ok (rows, count)) :
    Keeps before (kind.view.restore before rows) := by
  have cells : rows.map kind.orderCell = (before.rows kind).map kind.orderCell :=
    map_updateRows kind.orderCell same updated
  apply of_restore
  · rw [cells]
    exact List.Subset.refl _
  · intro numbers row member
    have inCells : kind.orderCell row ∈ (before.rows kind).map kind.orderCell := by
      rw [← cells]
      exact List.mem_map_of_mem member
    rcases List.mem_map.mp inCells with ⟨old, stored, holds⟩
    rw [← holds]
    exact numbers old stored

theorem insertOrg
    {org : Org}
    (inserted : before.insertOrg (.ofOrg org) = .ok after) :
    Keeps before after := by
  rcases bind_eq_ok.mp inserted with ⟨rows, accepted, last⟩
  cases last
  exact of_insertRow .org ⟨org.stamp.order, rfl⟩ accepted

theorem insertUser
    {user : User}
    {texts : SealedTexts}
    (inserted : before.insertUser (.ofUser user texts) = .ok after) :
    Keeps before after := by
  rcases bind_eq_ok.mp inserted with ⟨rows, accepted, last⟩
  cases last
  exact of_insertRow .user ⟨user.stamp.order, rfl⟩ accepted

theorem updateOrg
    {org : Org}
    {expected : Signature}
    {answer : Bool}
    (updated : before.updateOrg org expected = .ok (after, answer)) :
    Keeps before after := by
  rcases bind_eq_ok.mp updated with ⟨⟨rows, count⟩, changed, last⟩
  cases last
  refine of_updateRows .org ?_ changed
  rintro row new given
  cases given
  rfl

theorem updateUser
    {user : User}
    {texts : SealedTexts}
    {expected : Signature}
    {answer : Bool}
    (updated : before.updateUser user texts expected = .ok (after, answer)) :
    Keeps before after := by
  rcases bind_eq_ok.mp updated with ⟨⟨rows, count⟩, changed, last⟩
  cases last
  refine of_updateRows .user ?_ changed
  rintro row new given
  cases given
  rfl

theorem insertEntry
    {entry : Entry}
    (inserted : before.insertEntry entry = .ok after) :
    Keeps before after := by
  rcases bind_eq_ok.mp inserted with ⟨rows, accepted, last⟩
  cases last
  rcases insertRow_eq_ok.mp accepted with ⟨-, rfl⟩
  refine ⟨fun numbered => numbered.withEntry rfl, ?_⟩
  intro sequence number covers
  cases covers with
  | @row kind row used number stored holds reaches =>
      exact .row (by cases kind <;> exact stored) holds reaches
  | entry stored holds reaches => exact .entry (List.mem_append_left _ stored) holds reaches
  | mark stored named holds reaches => exact .mark stored named holds reaches

theorem register
    {signature : Signature}
    {kind : RecordKind}
    {time : Int}
    (registered : before.register signature kind time = .ok after) :
    Keeps before after := by
  rcases register_eq_ok.mp registered with ⟨-, rfl⟩
  refine of_marks (fun _ => rows_registering _ _) rfl (fun marked => marked) ?_
  intro mark stored used holds
  exact ⟨mark, stored, rfl, used, holds, Int.le_refl used⟩

end Keeps

/-! ## What a statement covers -/

variable {before after : Tables}

theorem covers_insertOrg
    {org : Org}
    (inserted : before.insertOrg (.ofOrg org) = .ok after) :
    after.Covers .entity org.stamp.order := by
  rcases bind_eq_ok.mp inserted with ⟨rows, accepted, last⟩
  cases last
  rcases insertRow_eq_ok.mp accepted with ⟨-, rfl⟩
  exact @Covers.row _ .org (.ofOrg org) _ _
    (List.mem_append_right _ (List.mem_singleton_self _)) rfl (Int.le_refl _)

theorem covers_insertUser
    {user : User}
    {texts : SealedTexts}
    (inserted : before.insertUser (.ofUser user texts) = .ok after) :
    after.Covers .entity user.stamp.order := by
  rcases bind_eq_ok.mp inserted with ⟨rows, accepted, last⟩
  cases last
  rcases insertRow_eq_ok.mp accepted with ⟨-, rfl⟩
  exact @Covers.row _ .user (.ofUser user texts) _ _
    (List.mem_append_right _ (List.mem_singleton_self _)) rfl (Int.le_refl _)

theorem covers_insertEntry
    {entry : Entry}
    (inserted : before.insertEntry entry = .ok after) :
    after.Covers .trail entry.order := by
  rcases bind_eq_ok.mp inserted with ⟨rows, accepted, last⟩
  cases last
  rcases insertRow_eq_ok.mp accepted with ⟨-, rfl⟩
  exact .entry (List.mem_append_right _ (List.mem_singleton_self _)) rfl (Int.le_refl _)

end Tables

end SealedDirectory
