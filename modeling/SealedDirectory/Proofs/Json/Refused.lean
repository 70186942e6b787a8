import SealedDirectory.Proofs.Json.Printed

/-!
# Reading that comes to a fault

A reader that meets a fault gives its cause and the byte where it was met.  What it leaves
unread then is of no account, except to the closing of what it has opened: that runs all
the same, and it settles where a fault is reported that lies in a value and at no byte.
-/

namespace SealedDirectory.Json.Reader

/-- Before some characters a reader fails for a cause, which it meets at some byte. -/
def Fails
    {α : Type}
    (reader : Reader α)
    (chars : List Char)
    (cause : Cause) :
    Prop :=
  ∀ passed, ∃ bytes left, reader.run ⟨chars, passed⟩ = (.error (.at cause bytes), left)

/-- A reader refuses the value of some characters, which are passed up to the rest. -/
def Refuses
    {α : Type}
    (reader : Reader α)
    (chars : List Char)
    (cause : Cause)
    (rest : List Char) :
    Prop :=
  ∀ passed, ∃ after, reader.run ⟨chars, passed⟩ = (.error (.loose cause), ⟨rest, after⟩)

/--
Before some characters a reader comes to an outcome; if it is a value, the reader stops
before the rest.
-/
def Gives
    {α : Type}
    (reader : Reader α)
    (chars : List Char)
    (outcome : Except Cause α)
    (rest : List Char) :
    Prop :=
  match outcome with
  | .ok value => reader.Yields chars value rest
  | .error cause => reader.Fails chars cause

variable
  {α β : Type}
  {reader : Reader α}
  {chars middle rest : List Char}
  {cause : Cause}

/-! ## Sequences -/

theorem run_bind
    (reader : Reader α)
    (next : α → Reader β)
    (cursor : Cursor) :
    (reader >>= next).run cursor =
      ExceptT.bindCont next (reader.run cursor).1 (reader.run cursor).2 :=
  rfl

theorem Fails.bind
    (fails : reader.Fails chars cause)
    (next : α → Reader β) :
    (reader >>= next).Fails chars cause := by
  intro passed
  obtain ⟨bytes, left, ran⟩ := fails passed
  refine ⟨bytes, left, ?_⟩
  rw [run_bind, ran]
  rfl

theorem Yields.bind_fails
    {next : α → Reader β}
    {first : α}
    (begins : reader.Yields chars first middle)
    (fails : (next first).Fails middle cause) :
    (reader >>= next).Fails chars cause := by
  intro passed
  obtain ⟨between, ran⟩ := begins passed
  obtain ⟨bytes, left, ranNext⟩ := fails between
  refine ⟨bytes, left, ?_⟩
  rw [run_bind, ran]
  exact ranNext

theorem Yields.bind_refuses
    {next : α → Reader β}
    {first : α}
    (begins : reader.Yields chars first middle)
    (refuses : (next first).Refuses middle cause rest) :
    (reader >>= next).Refuses chars cause rest := by
  intro passed
  obtain ⟨between, ran⟩ := begins passed
  obtain ⟨after, ranNext⟩ := refuses between
  refine ⟨after, ?_⟩
  rw [run_bind, ran]
  exact ranNext

theorem Yields.bind_gives
    {next : α → Reader β}
    {first : α}
    {outcome : Except Cause β}
    (begins : reader.Yields chars first middle)
    (gives : (next first).Gives middle outcome rest) :
    (reader >>= next).Gives chars outcome rest := by
  cases outcome with
  | ok value => exact Yields.bind begins gives
  | error cause => exact begins.bind_fails gives

/-- Where there is no fault the value is handed on. -/
theorem Gives.bind_pure
    {fault? : Option Cause}
    {value : α}
    (gives : reader.Gives chars (fault?.elim (.ok value) .error) rest)
    (use : α → β) :
    (do return use (← reader)).Gives chars (fault?.elim (.ok (use value)) .error) rest := by
  cases fault? with
  | none => exact Yields.bind gives (yields_pure _ _)
  | some cause => exact Fails.bind gives _

theorem refuses_refuse
    (cause : Cause)
    (chars : List Char) :
    (refuse cause : Reader α).Refuses chars cause chars :=
  fun passed => ⟨passed, rfl⟩

/-! ## Closing -/

theorem run_tryCatch
    (reader : Reader α)
    (handle : Failure → Reader α)
    (cursor : Cursor) :
    (tryCatch reader handle).run cursor =
      match reader.run cursor with
      | (.ok value, left) => (.ok value, left)
      | (.error failure, left) => (handle failure).run left := by
  have bound (next : Except Failure α → StateM Cursor (Except Failure α)) :
      (reader.run >>= next) cursor = next (reader.run cursor).1 (reader.run cursor).2 := rfl
  rw [ExceptT.run_tryCatch, bound]
  rcases reader.run cursor with ⟨_ | _, left⟩ <;> rfl

/-- What a reader comes to is taken as a value, a failure as well. -/
theorem run_attempt
    (reader : Reader α)
    (cursor : Cursor) :
    (tryCatch (Except.ok <$> reader) fun failure => pure (Except.error failure)).run cursor =
      (.ok (reader.run cursor).1, (reader.run cursor).2) := by
  have mapped : (Except.ok <$> reader : Reader (Except Failure α)).run cursor =
      (Except.map Except.ok (reader.run cursor).1, (reader.run cursor).2) := by
    rw [ExceptT.run_map]
    rfl
  rw [run_tryCatch, mapped]
  rcases reader.run cursor with ⟨_ | _, left⟩ <;> rfl

theorem run_settle_of_failure
    {cursor left : Cursor}
    {failure : Failure}
    (ran : reader.run cursor = (.error failure, left)) :
    (settle reader).run cursor = (settle (throw failure : Reader α)).run left := by
  rw [settle, run_tryCatch, ran, settle, run_tryCatch]
  rfl

/-- A failure goes through the closing and is settled where the closing ends. -/
theorem run_closing_of_failure
    {cursor left : Cursor}
    {failure : Failure}
    (ran : reader.run cursor = (.error failure, left))
    (close : Reader Unit) :
    (closing reader close).run cursor =
      (settle (throw failure : Reader α)).run (close.run left).2 := by
  apply run_settle_of_failure
  rw [run_bind, run_attempt, ran]
  show (_ >>= _ : Reader α).run left = _
  rw [run_bind, run_attempt]
  rfl

/-- A fault that was met at a byte is reported there, whatever the closing comes to. -/
theorem Fails.closing
    (fails : reader.Fails chars cause)
    (close : Reader Unit) :
    (closing reader close).Fails chars cause := by
  intro passed
  obtain ⟨bytes, left, ran⟩ := fails passed
  exact ⟨bytes, (close.run left).2, run_closing_of_failure ran close⟩

/-- A value that is refused is reported where the closing has taken the reader. -/
theorem Refuses.closing
    {close : Reader Unit}
    (refuses : reader.Refuses chars cause middle)
    (closes : close.Yields middle () rest) :
    (closing reader close).Fails chars cause := by
  intro passed
  obtain ⟨between, ran⟩ := refuses passed
  obtain ⟨after, closed⟩ := closes between
  refine ⟨after, ⟨rest, after⟩, ?_⟩
  rw [run_closing_of_failure ran close, closed]
  rfl

/-! ## Whole texts -/

theorem onText_eq_ok_of_blank
    {text : String}
    {value : α}
    {blanks : List Char}
    (reads : reader.Yields text.toList value blanks)
    (blank : Blank blanks) :
    onText reader text = .ok value := by
  have passes : (takeWhile isSpace).Yields (blanks ++ []) blanks [] :=
    yields_takeWhile blanks blank (by simp)
  rw [List.append_nil] at passes
  have ends : finish.Yields blanks () [] :=
    (passes.bind (yields_peek? _)).bind (yields_pure _ _)
  have whole : Yields (do let value ← reader; finish; return value) text.toList value [] :=
    reads.bind (ends.bind (yields_pure value []))
  obtain ⟨after, ran⟩ := whole 0
  rw [onText, ran]

theorem Fails.onText
    {text : String}
    (fails : reader.Fails text.toList cause) :
    ∃ place, onText reader text = .error ⟨cause, some place⟩ := by
  obtain ⟨bytes, left, ran⟩ := fails.bind (fun value => finish >>= fun _ => pure value) 0
  refine ⟨Place.after (Bytes.ofText text) bytes, ?_⟩
  rw [Reader.onText, ran]

end SealedDirectory.Json.Reader
