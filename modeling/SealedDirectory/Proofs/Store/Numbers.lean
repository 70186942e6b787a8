import SealedDirectory.Store.Marks
import Mathlib.Data.List.Basic

/-!
# Numbers that the store knows

In a store that was only written by the directory every place and every mark is a
number.  The greatest known number of a sequence is then one of them, or zero where a
table has none, and it bounds them all; so a number that is drawn next is above every
number in the store.
-/

namespace SealedDirectory.Tables

/-- Every place and every mark is a number. -/
def Numbered (tables : Tables) : Prop :=
  ∀ sequence, ∀ cells ∈ tables.usedNumbers sequence, ∀ cell ∈ cells,
    ∃ number, cell = .holds number

theorem higher_holds (left right : Int) :
    higher (.holds left) (.holds right) = .holds (max left right) := by
  have compared :
      (Cell.holds right).content.atMost (Cell.holds left).content = decide (right ≤ left) :=
    rfl
  rw [higher, compared]
  by_cases below : right ≤ left
  · rw [decide_eq_true below, if_pos rfl, Int.max_eq_left below]
  · rw [decide_eq_false below, if_neg Bool.false_ne_true,
      Int.max_eq_right (Int.le_of_not_le below)]

/-- The greatest of a number and several others bounds them all and is one of them. -/
theorem foldl_higher
    {cells : List (Cell Int)}
    (numbers : ∀ cell ∈ cells, ∃ number, cell = .holds number)
    (start : Int) :
    ∃ top, cells.foldl higher (.holds start) = .holds top ∧
      (∀ number, .holds number ∈ Cell.holds start :: cells → number ≤ top) ∧
      .holds top ∈ Cell.holds start :: cells := by
  induction cells generalizing start with
  | nil => exact ⟨start, rfl, by simp, by simp⟩
  | cons cell rest ih =>
      rcases numbers cell (by simp) with ⟨number, rfl⟩
      have others : ∀ cell ∈ rest, ∃ number, cell = .holds number :=
        fun cell inRest => numbers cell (by simp [inRest])
      rcases ih others (max start number) with ⟨top, found, above, member⟩
      refine ⟨top, ?_, ?_, ?_⟩
      · rw [List.foldl_cons, higher_holds, found]
      · have bound := above (max start number) (by simp)
        intro other inList
        simp only [List.mem_cons, Cell.holds.injEq] at inList
        rcases inList with rfl | rfl | inRest
        · omega
        · omega
        · exact above other (by simp [inRest])
      · simp only [List.mem_cons, Cell.holds.injEq] at member ⊢
        rcases member with same | inRest
        · omega
        · exact .inr (.inr inRest)

/-- The greatest of several numbers is one of them, or zero if there are none. -/
theorem greatest_holds
    {cells : List (Cell Int)}
    (numbers : ∀ cell ∈ cells, ∃ number, cell = .holds number) :
    ∃ top, greatest cells = .holds top ∧
      (∀ number, .holds number ∈ cells → number ≤ top) ∧
      (.holds top ∈ cells ∨ (cells = [] ∧ top = 0)) := by
  cases cells with
  | nil => exact ⟨0, rfl, by simp, .inr ⟨rfl, rfl⟩⟩
  | cons cell rest =>
      rcases numbers cell (by simp) with ⟨start, rfl⟩
      have others : ∀ cell ∈ rest, ∃ number, cell = .holds number :=
        fun cell inRest => numbers cell (by simp [inRest])
      rcases foldl_higher others start with ⟨top, found, above, member⟩
      exact ⟨top, found, above, .inl member⟩

/-- A table that a sequence is read from has no number yet. -/
def Untouched (tables : Tables) (sequence : Sequence) : Prop :=
  [] ∈ tables.usedNumbers sequence

/-- What the store knows of a sequence if all its numbers are numbers. -/
structure Knows (tables : Tables) (sequence : Sequence) (top : Int) : Prop where
  found : tables.highest sequence = .ok top
  above : ∀ cells ∈ tables.usedNumbers sequence, ∀ number,
    .holds number ∈ cells → number ≤ top
  /-- Where a table has no number, the answer is at least zero. -/
  natural : tables.Untouched sequence → 0 ≤ top
  /-- The answer is a stored number, or zero where a table has none. -/
  attained : (∃ cells ∈ tables.usedNumbers sequence, .holds top ∈ cells) ∨
    (tables.Untouched sequence ∧ top = 0)

theorem Numbered.knows
    {tables : Tables} (numbered : tables.Numbered) (sequence : Sequence) :
    ∃ top, tables.Knows sequence top := by
  have tops : ∀ cell ∈ (tables.usedNumbers sequence).map greatest,
      ∃ number, cell = .holds number := by
    intro cell member
    rcases List.mem_map.mp member with ⟨cells, inTables, rfl⟩
    rcases greatest_holds (numbered sequence cells inTables) with ⟨top, found, -⟩
    exact ⟨top, found⟩
  rcases greatest_holds tops with ⟨top, found, above, attained⟩
  refine ⟨top, ?_, ?_, ?_, ?_⟩
  · rw [highest, found, Cell.read_holds]
  · intro cells inTables number member
    obtain ⟨bound, foundHere, aboveHere, -⟩ :=
      greatest_holds (numbered sequence cells inTables)
    have here := aboveHere number member
    have there := above bound (foundHere ▸ List.mem_map_of_mem inTables)
    omega
  · intro untouched
    exact above 0 (List.mem_map_of_mem untouched)
  · rcases attained with member | ⟨none, -⟩
    · rcases List.mem_map.mp member with ⟨cells, inTables, same⟩
      obtain ⟨here, foundHere, -, attainedHere⟩ :=
        greatest_holds (numbered sequence cells inTables)
      rw [foundHere, Cell.holds.injEq] at same
      subst same
      rcases attainedHere with inCells | ⟨rfl, zero⟩
      · exact .inl ⟨cells, inTables, inCells⟩
      · exact .inr ⟨inTables, zero⟩
    · cases sequence <;> simp [usedNumbers] at none

/-- What is known of a sequence is one number. -/
theorem Knows.unique
    {tables : Tables} {sequence : Sequence} {top stored : Int}
    (knows : tables.Knows sequence top)
    (asked : tables.highest sequence = .ok stored) :
    stored = top := by
  have same := asked.symm.trans knows.found
  simpa using same

theorem mem_usedNumbers_trail
    {tables : Tables} {cells : List (Cell Int)} :
    cells ∈ tables.usedNumbers .trail ↔
      cells = tables.trail.map EntryRow.order ∨
        cells = (tables.marks.filter fun mark =>
          mark.name = .holds Sequence.trail.name).map MarkRow.value := by
  simp [usedNumbers]

/-- The tables with one more row in the trail. -/
abbrev withEntry (tables : Tables) (row : EntryRow) : Tables :=
  { tables with trail := tables.trail ++ [row] }

section

variable {tables : Tables} {row : EntryRow} {stored number : Int}

theorem Numbered.withEntry
    (numbered : tables.Numbered)
    (order : row.order = .holds number) :
    (tables.withEntry row).Numbered := by
  intro sequence cells member cell inCells
  cases sequence with
  | entity => exact numbered .entity cells member cell inCells
  | trail =>
      rcases mem_usedNumbers_trail.mp member with rfl | rfl
      · rw [List.map_append, List.mem_append] at inCells
        rcases inCells with old | new
        · exact numbered .trail _ (mem_usedNumbers_trail.mpr (.inl rfl)) cell old
        · exact ⟨number, by simpa [order] using new⟩
      · exact numbered .trail _ (mem_usedNumbers_trail.mpr (.inr rfl)) cell inCells

/-- An entry with a number above all others is what the trail knows next. -/
theorem Knows.withEntry
    (knows : tables.Knows .trail stored)
    (numbered : tables.Numbered)
    (order : row.order = .holds number)
    (above : stored < number) :
    (tables.withEntry row).Knows .trail number := by
  rcases (numbered.withEntry order).knows .trail with ⟨top, known⟩
  have reached : number ≤ top := by
    apply known.above _ (mem_usedNumbers_trail.mpr (.inl rfl))
    simp [order]
  have same : top = number := by
    rcases known.attained with ⟨cells, inTables, member⟩ | ⟨untouched, zero⟩
    · rcases mem_usedNumbers_trail.mp inTables with rfl | rfl
      · rw [List.map_append, List.mem_append] at member
        rcases member with old | new
        · have bound := knows.above _ (mem_usedNumbers_trail.mpr (.inl rfl)) top old
          omega
        · simpa [order] using new
      · have bound := knows.above _ (mem_usedNumbers_trail.mpr (.inr rfl)) top member
        omega
    · -- The trail has an entry now, so it is the mark that is missing, before as after.
      have marks : tables.Untouched .trail := by
        rcases mem_usedNumbers_trail.mp untouched with never | none
        · simp at never
        · exact mem_usedNumbers_trail.mpr (.inr none)
      have bound := knows.natural marks
      omega
  exact same ▸ known

end

end SealedDirectory.Tables
