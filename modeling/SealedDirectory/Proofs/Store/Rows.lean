import SealedDirectory.Store.Tables
import Mathlib.Data.List.Basic

/-!
# Rows that are inserted and changed

A row that is accepted by its table is apart from all others: it agrees with none of
them in columns that must be unique.  A statement that changes exactly one row replaces
it where it stands and leaves every other row alone.
-/

namespace SealedDirectory

variable {ρ : Type}

/-- A sequence of two steps succeeds if the first does and then the second. -/
theorem bind_eq_ok
    {ε α β : Type} {first : Except ε α} {next : α → Except ε β} {result : β} :
    (first >>= next) = .ok result ↔
      ∃ value, first = .ok value ∧ next value = .ok result := by
  cases first with
  | error fault => simp [bind, Except.bind]
  | ok value => simp [bind, Except.bind]

/-- A cell with a value agrees with no cell that holds another value. -/
theorem Cell.clashes_eq_false
    {α : Type} [DecidableEq α] {value : α} {cell : Cell α} :
    (Cell.holds value).clashes cell = false ↔ cell ≠ .holds value := by
  simp only [clashes, ne_eq, reduceCtorEq, not_false_eq_true, and_true, decide_eq_false_iff_not]
  exact not_congr eq_comm

/-- A row agrees with none of others in columns that must be unique. -/
def Apart (uniques : List (Unique ρ)) (row : ρ) (others : List ρ) : Prop :=
  ∀ unique ∈ uniques, ∀ other ∈ others, unique.clash row other = false

theorem brokenUnique?_eq_none
    {uniques : List (Unique ρ)} {row : ρ} {others : List ρ} :
    brokenUnique? uniques row others = none ↔ Apart uniques row others := by
  simp [brokenUnique?, Apart]

theorem insertRow_eq_ok
    {uniques : List (Unique ρ)} {row : ρ} {rows result : List ρ} :
    insertRow uniques row rows = .ok result ↔
      Apart uniques row rows ∧ result = rows ++ [row] := by
  rw [← brokenUnique?_eq_none, insertRow]
  cases brokenUnique? uniques row rows with
  | none => simp [eq_comm]
  | some columns => simp

/-- A statement that selects no row changes none. -/
theorem updateRows_none
    {uniques : List (Unique ρ)} {select : ρ → Bool} {change : ρ → Except Fault ρ}
    {done rows result : List ρ}
    (updated : updateRows uniques select change done rows = .ok (result, 0)) :
    result = done ++ rows ∧ ∀ row ∈ rows, select row = false := by
  induction rows generalizing done with
  | nil =>
      cases updated
      simp
  | cons row rest ih =>
      by_cases selected : select row = true
      · simp only [updateRows, selected, if_true, bind_eq_ok] at updated
        rcases updated with ⟨new, changed, updated⟩
        split at updated
        · cases updated
        · rcases bind_eq_ok.mp updated with ⟨⟨rows, count⟩, others, last⟩
          simp [pure, Except.pure] at last
      · simp only [updateRows, selected, Bool.false_eq_true, if_false] at updated
        rcases ih updated with ⟨same, none⟩
        refine ⟨by simpa using same, ?_⟩
        intro other member
        rcases List.mem_cons.mp member with rfl | inRest
        · simpa using selected
        · exact none other inRest

/-- Rows that are not selected are left where they are. -/
theorem updateRows_unselected
    (uniques : List (Unique ρ)) {select : ρ → Bool} (change : ρ → Except Fault ρ)
    (done rest : List ρ) {rows : List ρ}
    (unselected : ∀ row ∈ rows, select row = false) :
    updateRows uniques select change done (rows ++ rest) =
      updateRows uniques select change (done ++ rows) rest := by
  induction rows generalizing done with
  | nil => simp
  | cons row rows ih =>
      have here := unselected row (List.mem_cons_self ..)
      have others := ih (done ++ [row]) fun other member =>
        unselected other (List.mem_cons_of_mem _ member)
      rw [List.cons_append, updateRows, if_neg (by simp [here]), others,
        List.append_assoc, List.singleton_append]

/-- The one row that is selected is replaced if its new form is apart from the others. -/
theorem updateRows_selected
    {uniques : List (Unique ρ)} (select : ρ → Bool) (change : ρ → Except Fault ρ)
    {earlier later : List ρ} {old new : ρ}
    (selected : select old = true)
    (unselected : ∀ row ∈ earlier ++ later, select row = false)
    (changed : change old = .ok new)
    (apart : Apart uniques new (earlier ++ later)) :
    updateRows uniques select change [] (earlier ++ old :: later) =
      .ok (earlier ++ new :: later, 1) := by
  have before : ∀ row ∈ earlier, select row = false :=
    fun row member => unselected row (List.mem_append_left _ member)
  have behind : ∀ row ∈ later, select row = false :=
    fun row member => unselected row (List.mem_append_right _ member)
  have rest := updateRows_unselected uniques change (earlier ++ [new]) [] behind
  rw [List.append_nil] at rest
  rw [updateRows_unselected _ _ _ _ before, List.nil_append, updateRows, if_pos selected, changed]
  simp [bind, Except.bind, pure, Except.pure, brokenUnique?_eq_none.mpr apart, rest, updateRows]

/-- The one row that is selected is refused if its new form breaks a rule among the others. -/
theorem updateRows_broken
    {uniques : List (Unique ρ)} (select : ρ → Bool) (change : ρ → Except Fault ρ)
    {earlier later : List ρ} {old new : ρ} {columns : List String}
    (selected : select old = true)
    (unselected : ∀ row ∈ earlier ++ later, select row = false)
    (changed : change old = .ok new)
    (broken : brokenUnique? uniques new (earlier ++ later) = some columns) :
    updateRows uniques select change [] (earlier ++ old :: later) = .error (.taken columns) := by
  have before : ∀ row ∈ earlier, select row = false :=
    fun row member => unselected row (List.mem_append_left _ member)
  rw [updateRows_unselected _ _ _ _ before, List.nil_append, updateRows, if_pos selected, changed]
  simp [bind, Except.bind, broken]

/-- A statement that selects one row replaces that row where it stands. -/
theorem updateRows_one
    {uniques : List (Unique ρ)} {select : ρ → Bool} {change : ρ → Except Fault ρ}
    {done rows result : List ρ}
    (updated : updateRows uniques select change done rows = .ok (result, 1)) :
    ∃ earlier old later new,
      rows = earlier ++ old :: later ∧ result = done ++ earlier ++ new :: later ∧
        select old = true ∧ change old = .ok new ∧
        Apart uniques new (done ++ earlier ++ later) := by
  induction rows generalizing done with
  | nil => cases updated
  | cons row rest ih =>
      by_cases selected : select row = true
      · simp only [updateRows, selected, if_true, bind_eq_ok] at updated
        rcases updated with ⟨new, changed, updated⟩
        split at updated
        · cases updated
        · next unbroken =>
            rcases bind_eq_ok.mp updated with ⟨⟨rows, count⟩, others, last⟩
            simp only [pure, Except.pure, Except.ok.injEq, Prod.mk.injEq,
              Nat.add_eq_right] at last
            rcases last with ⟨rfl, rfl⟩
            have kept := (updateRows_none others).1
            refine ⟨[], row, rest, new, rfl, ?_, selected, changed, ?_⟩
            · simpa using kept
            · simpa using brokenUnique?_eq_none.mp unbroken
      · simp only [updateRows, selected, Bool.false_eq_true, if_false] at updated
        rcases ih updated with ⟨earlier, old, later, new, rest, placed, chosen, changed, apart⟩
        refine ⟨row :: earlier, old, later, new, ?_, ?_, chosen, changed, ?_⟩
        · rw [rest, List.cons_append]
        · simpa using placed
        · simpa using apart

end SealedDirectory
