import SealedDirectory.Json.Record
import SealedDirectory.Proofs.Json.Reading

/-!
# Reading documents and objects

A reader that has given its value may still have to close what it opened, and at the end
of a text nothing may be left.  Documents without parts are named here, with the character
by which a number is known; an object is read field by field, from one state to the next.
-/

namespace SealedDirectory.Json.Reader

variable {α : Type} {chars middle rest : List Char}

/-! ## Closing and ending -/

theorem Yields.map
    {reader : Reader α}
    {β : Type}
    {value : α}
    (reads : reader.Yields chars value rest)
    (f : α → β) :
    (f <$> reader).Yields chars (f value) rest := by
  intro passed
  rcases reads passed with ⟨after, ran⟩
  refine ⟨after, ?_⟩
  rw [ExceptT.run_map]
  show (Except.map f (reader.run ⟨chars, passed⟩).1, (reader.run ⟨chars, passed⟩).2) = _
  rw [ran]
  rfl

/-- What does not fail is not caught. -/
theorem Yields.tryCatch
    {reader : Reader α}
    {handle : Failure → Reader α}
    {value : α}
    (reads : reader.Yields chars value rest) :
    (MonadExcept.tryCatch reader handle).Yields chars value rest := by
  intro passed
  rcases reads passed with ⟨after, ran⟩
  refine ⟨after, ?_⟩
  have bound (next : Except Failure α → StateM Cursor (Except Failure α)) :
      (reader.run >>= next) ⟨chars, passed⟩ =
        next (reader.run ⟨chars, passed⟩).1 (reader.run ⟨chars, passed⟩).2 := rfl
  rw [ExceptT.run_tryCatch, bound, ran]
  rfl

theorem Yields.closing
    {reader : Reader α}
    {close : Reader Unit}
    {value : α}
    (reads : reader.Yields chars value middle)
    (closes : close.Yields middle () rest) :
    (closing reader close).Yields chars value rest := by
  apply Yields.tryCatch
  apply (reads.map Except.ok).tryCatch.bind
  apply (closes.map Except.ok).tryCatch.bind
  exact yields_pure _ _

/-- A reader that stops at the end of a text gives the value of the text. -/
theorem onText_eq_ok
    {reader : Reader α}
    {text : String}
    {value : α}
    (reads : reader.Yields text.toList value []) :
    onText reader text = .ok value := by
  have blanks : (takeWhile isSpace).Yields [] [] [] :=
    yields_takeWhile [] (by simp) (by simp)
  have ends : finish.Yields [] () [] :=
    (blanks.bind (yields_peek? _)).bind (yields_pure _ _)
  have whole : Yields (do let value ← reader; finish; return value) text.toList value [] :=
    reads.bind (ends.bind (yields_pure value []))
  rcases whole 0 with ⟨after, ran⟩
  rw [onText, ran]

/-! ## Plain documents -/

theorem yields_word (letters rest : List Char) :
    (word letters).Yields (letters ++ rest) () rest := by
  induction letters with
  | nil => exact yields_pure _ _
  | cons letter letters ih =>
      apply Yields.of_cursor
      intro passed
      apply (yields_next? letter _).bind
      simp only [if_true]
      exact ih

/-- A document without parts, with no number that would be read as a double. -/
inductive Plain : Json → Prop
  | null : Plain .null
  | bool (value : Bool) : Plain (.bool value)
  | integer {value : Int} (inRange : InRange value) : Plain (.integer value)
  | text (value : String) : Plain (.text value)

/-- A whole number begins with its sign or with a digit. -/
theorem integerChars_head (value : Int) :
    ∃ char others, integerChars value = char :: others ∧ beginsNumber char = true ∧
      isSpace char = false ∧ char ≠ 'n' ∧ char ≠ 't' ∧ char ≠ 'f' := by
  have digit (char : Char) (isDigit : char.isDigit = true) :
      beginsNumber char = true ∧ isSpace char = false ∧ char ≠ 'n' ∧ char ≠ 't' ∧
        char ≠ 'f' := by
    have differs (other : Char) (noDigit : other.isDigit = false) : char ≠ other := by
      rintro rfl
      rw [isDigit] at noDigit
      cases noDigit
    refine ⟨?_, ?_, differs _ rfl, differs _ rfl, differs _ rfl⟩
    · simp [beginsNumber, isDigit]
    · simp [isSpace, differs ' ' rfl, differs '\n' rfl, differs '\t' rfl, differs '\r' rfl]
  cases value with
  | ofNat natural =>
      have written : naturalChars natural ≠ [] := Nat.toDigits_ne_nil
      rcases List.exists_cons_of_ne_nil written with ⟨char, others, begins⟩
      refine ⟨char, others, begins, digit char ?_⟩
      apply naturalChars_isDigit natural
      rw [begins]
      exact List.mem_cons_self ..
  | negSucc below =>
      exact ⟨'-', naturalChars (below + 1), rfl, by decide, by decide, by decide, by decide,
        by decide⟩

/-! ## Fields of an object -/

theorem yields_fuel (chars : List Char) :
    fuel.Yields chars (chars.length + 1) chars :=
  fun passed => ⟨passed, rfl⟩

theorem yields_closeObject (rest : List Char) :
    closeObject.Yields ('\x7d' :: rest) () rest :=
  (yields_peekToken _ rfl).bind (yields_skip _ _)

section

variable
  {σ : Type}
  {field : σ → Reader σ}
  {isFirst : Bool}
  {fuel : Nat}
  {state next last : σ}
  {between : List Char}

theorem Yields.fields_cons
    (goesOn : (hasField isFirst).Yields chars true middle)
    (reads : (field state).Yields middle next between)
    (others : (fields field false fuel next).Yields between last rest) :
    (fields field isFirst (fuel + 1) state).Yields chars last rest :=
  goesOn.bind (reads.bind others)

theorem Yields.fields_nil
    (ends : (hasField isFirst).Yields chars false rest) :
    (fields field isFirst (fuel + 1) state).Yields chars state rest :=
  ends.bind (yields_pure _ _)

end

end SealedDirectory.Json.Reader
