import SealedDirectory.Report.Csv

/-!
# Reading comma-separated records back

Whatever characters the fields of a record have, a reader finds the same fields again and
in the same order.  A field with a comma, a quote or the end of a line stands between
quotes, so the reader is inside of it when it meets them; a comma or the end of a line
that it meets outside of a field separates fields or records.

Only a record without any field is not read back: its line is empty, and an empty line is
a record with one empty field.
-/

namespace SealedDirectory.Csv

/-! ## Fields -/

section

variable
  (current rest : List Char)
  (row : List (List Char))

/-- A character that needs no quotes goes on with a plain field, or begins one. -/
theorem readFrom_plainChar
    {state : State}
    {char : Char}
    (inPlain : state = .start ∨ state = .plain)
    (plain : needsQuotes char = false) :
    readFrom state current row (char :: rest) = readFrom .plain (char :: current) row rest := by
  simp only [needsQuotes, Bool.or_eq_false_iff, beq_eq_false_iff_ne] at plain
  rcases inPlain with rfl | rfl <;> simp [readFrom, plain]

theorem readFrom_plain
    {chars : List Char}
    (plain : ∀ char ∈ chars, needsQuotes char = false) :
    readFrom .plain current row (chars ++ rest) =
      readFrom .plain (chars.reverse ++ current) row rest := by
  induction chars generalizing current with
  | nil => rfl
  | cons char chars ih =>
      have here := plain char (List.mem_cons_self ..)
      have others := ih (char :: current) fun other member =>
        plain other (List.mem_cons_of_mem _ member)
      rw [List.cons_append, readFrom_plainChar _ _ _ (.inr rfl) here, others,
        List.reverse_cons, List.append_assoc, List.singleton_append]

/-- Between quotes every character is read, a doubled quote as one. -/
theorem readFrom_quoted (chars : List Char) :
    readFrom .quoted current row (chars.flatMap quotedChar ++ '"' :: rest) =
      readFrom .closing (chars.reverse ++ current) row rest := by
  induction chars generalizing current with
  | nil => simp [readFrom]
  | cons char chars ih =>
      by_cases quote : char = '"'
      · subst quote
        simp [readFrom, quotedChar, ih]
      · simp [readFrom, quotedChar, quote, ih]

/-- After a field a reader holds its characters, and it is not between quotes. -/
theorem readFrom_field (chars : List Char) :
    ∃ state, state ≠ .quoted ∧
      readFrom .start [] row (field chars ++ rest) = readFrom state chars.reverse row rest := by
  cases quotes : chars.any needsQuotes with
  | true =>
      refine ⟨.closing, by decide, ?_⟩
      have inside := readFrom_quoted [] rest row chars
      simpa [field, quotes, readFrom] using inside
  | false =>
      have plain : ∀ char ∈ chars, needsQuotes char = false := by
        simpa using quotes
      have same : field chars = chars := by simp [field, quotes]
      rw [same]
      cases chars with
      | nil => exact ⟨.start, by decide, rfl⟩
      | cons char chars =>
          refine ⟨.plain, by decide, ?_⟩
          have here := plain char (List.mem_cons_self ..)
          have others := readFrom_plain [char] rest row fun other member =>
            plain other (List.mem_cons_of_mem _ member)
          rw [List.cons_append, readFrom_plainChar _ _ _ (.inl rfl) here, others,
            List.reverse_cons]

end

/-! ## Records -/

section

variable
  (rest chars : List Char)
  (row : List (List Char))

/-- A comma behind a field ends it. -/
theorem readFrom_field_comma :
    readFrom .start [] row (field chars ++ ',' :: rest) =
      readFrom .start [] (chars :: row) rest := by
  obtain ⟨state, outside, read⟩ := readFrom_field (',' :: rest) row chars
  rw [read]
  cases state with
  | quoted => exact absurd rfl outside
  | _ => simp [readFrom]

/-- The end of a line behind a field ends the field and the record. -/
theorem readFrom_field_line :
    readFrom .start [] row (field chars ++ '\n' :: rest) =
      (readFrom .start [] [] rest).map ((chars :: row).reverse :: ·) := by
  obtain ⟨state, outside, read⟩ := readFrom_field ('\n' :: rest) row chars
  rw [read]
  cases state with
  | quoted => exact absurd rfl outside
  | _ => simp [readFrom]

end

/-- The fields up to the end of a line are read behind those that were read before. -/
theorem readFrom_fields
    (rest : List Char)
    (before : List (List Char))
    {row : List (List Char)}
    (filled : row ≠ []) :
    readFrom .start [] before (fields row ++ '\n' :: rest) =
      (readFrom .start [] [] rest).map ((before.reverse ++ row) :: ·) := by
  induction row generalizing before with
  | nil => exact absurd rfl filled
  | cons first others ih =>
      cases others with
      | nil => rw [fields, readFrom_field_line, List.reverse_cons]
      | cons second others =>
          rw [fields, List.append_assoc, List.cons_append, readFrom_field_comma,
            ih (first :: before) (List.cons_ne_nil _ _), List.reverse_cons, List.append_assoc,
            List.singleton_append]
          exact List.cons_ne_nil _ _

/-- Records that have a field are read back as they were written. -/
theorem read_write
    {rows : List (List (List Char))}
    (filled : ∀ row ∈ rows, row ≠ []) :
    read (write rows) = some rows := by
  rw [read, write, String.toList_ofList]
  induction rows with
  | nil => rfl
  | cons row rows ih =>
      have here := filled row (List.mem_cons_self ..)
      have others := ih fun other member => filled other (List.mem_cons_of_mem _ member)
      rw [List.flatMap_cons, record, List.append_assoc, List.singleton_append,
        readFrom_fields _ [] here, others]
      rfl

end SealedDirectory.Csv
