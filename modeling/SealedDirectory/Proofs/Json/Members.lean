import SealedDirectory.Proofs.Json.Foreign
import SealedDirectory.Proofs.Json.Refused

/-!
# Members of an object

What stands between the braces of an object takes a reader from one state to the next,
member by member, in whatever spacing they are written and however their names are spelled.
It ends with the closing brace, or with the first fault.
-/

namespace SealedDirectory.Json.Reader

/-! ## Members in a row -/

/-- What stands between the braces of an object. -/
def memberChars
    (members : List Member)
    (within : List Char) :
    List Char :=
  [','].intercalate (members.map fun member => member.part.chars) ++ within

theorem objectChars_append
    (members : List Member)
    (within rest : List Char) :
    objectChars members within ++ rest =
      '\x7b' :: (memberChars members within ++ '\x7d' :: rest) := by
  simp [objectChars, enclosed, memberChars, Function.comp_def]

theorem memberChars_nil_append (within rest : List Char) :
    memberChars [] within ++ rest = within ++ rest := by
  simp [memberChars]

theorem memberChars_cons_append
    (member : Member)
    (members : List Member)
    (within rest : List Char) :
    memberChars (member :: members) within ++ rest =
      member.part.lead ++ following member.after (members.map Member.part) (within ++ rest) := by
  simp [memberChars, Text.intercalate_cons, following, Part.chars, List.flatMap_map, Member.part]

theorem length_le_memberChars
    (members : List Member)
    (within rest : List Char) :
    members.length ≤ (memberChars members within ++ rest).length := by
  cases members with
  | nil => exact Nat.zero_le _
  | cons member members =>
      have others := length_le_following member.after (members.map Member.part) (within ++ rest)
      rw [List.length_map] at others
      rw [memberChars_cons_append, Member.part]
      simp only [List.length_cons, List.length_append] at others ⊢
      omega

section

variable
  {after front rest : List Char}

theorem yields_firstMember (blank : Blank front) :
    (hasField true).Yields (front ++ '"' :: rest) true ('"' :: rest) :=
  (yields_token blank _ rfl).bind (yields_pure _ _)

theorem yields_nextMember
    (blankAfter : Blank after)
    (blank : Blank front) :
    (hasField false).Yields (after ++ ',' :: (front ++ '"' :: rest)) true ('"' :: rest) :=
  (yields_token blankAfter _ rfl).bind
    ((yields_skip _ _).bind ((yields_token blank _ rfl).bind (yields_pure _ _)))

end

/--
The members of an object take a reader, one after the other, from a state to an outcome; a
fault ends this, whatever members are left.
-/
inductive Takes
    {σ : Type}
    (step : String → σ → Reader σ) :
    List Member → σ → Except Cause σ → Prop
  | nil (state : σ) :
      Takes step [] state (.ok state)
  | cons
      {name : String}
      {member : Member}
      {members : List Member}
      {state next : σ}
      {outcome : Except Cause σ}
      (spaced : member.Spaced)
      (spells : Spells member.name name.toList)
      (reads : ∀ rest, Delimited rest → (step name state).Yields (member.entry ++ rest) next rest)
      (others : Takes step members next outcome) :
      Takes step (member :: members) state outcome
  | fault
      {name : String}
      {member : Member}
      {members : List Member}
      {state : σ}
      {cause : Cause}
      (spaced : member.Spaced)
      (spells : Spells member.name name.toList)
      (fails : ∀ rest, Delimited rest → (step name state).Fails (member.entry ++ rest) cause) :
      Takes step (member :: members) state (.error cause)

section

variable
  {σ : Type}
  {step : String → σ → Reader σ}
  {members : List Member}
  {state : σ}
  {outcome : Except Cause σ}
  {within : List Char}

section

variable
  {name : String}
  {written chars rest : List Char}
  (spells : Spells written name.toList)

include spells

/-- A member is read from the opening quote of its name up to the blanks behind its value. -/
theorem yields_named
    {next : σ}
    (reads : (step name state).Yields chars next rest) :
    (named step state).Yields ('"' :: (written ++ '"' :: chars)) next rest :=
  (spells.yields_name chars).bind reads

theorem fails_named
    {cause : Cause}
    (fails : (step name state).Fails chars cause) :
    (named step state).Fails ('"' :: (written ++ '"' :: chars)) cause :=
  (spells.yields_name chars).bind_fails fails

end

/-- The members after the first one are read, up to the closing brace. -/
theorem Takes.gives_more
    (takes : Takes step members state outcome)
    {after : List Char}
    (blankAfter : Blank after)
    (blank : Blank within)
    (rest : List Char)
    {fuel : Nat}
    (enough : members.length < fuel) :
    (fields (named step) false fuel state).Gives
      (following after (members.map Member.part) (within ++ '\x7d' :: rest)) outcome
      ('\x7d' :: rest) := by
  induction takes generalizing after fuel with
  | nil state =>
      obtain ⟨fuel, rfl⟩ := Nat.exists_eq_succ_of_ne_zero (Nat.ne_of_gt enough)
      have bothBlank : Blank (after ++ within) := List.forall_mem_append.mpr ⟨blankAfter, blank⟩
      show Yields _ (after ++ (within ++ _)) _ _
      rw [← List.append_assoc]
      exact (yields_lastField bothBlank false).fields_nil
  | @cons name member members state next outcome spaced spells reads others ih =>
      obtain ⟨fuel, rfl⟩ := Nat.exists_eq_succ_of_ne_zero (Nat.ne_of_gt (Nat.zero_lt_of_lt enough))
      have delimited :=
        delimited_following spaced.after blank (.inr rfl) (members.map Member.part) rest
      have more := ih spaced.after (Nat.lt_of_succ_lt_succ enough)
      have field := yields_named spells (reads _ delimited)
      rw [List.map_cons, following_cons, Member.lead_append]
      exact (yields_nextMember blankAfter spaced.front).bind_gives (field.bind_gives more)
  | @fault name member members state cause spaced spells fails =>
      obtain ⟨fuel, rfl⟩ := Nat.exists_eq_succ_of_ne_zero (Nat.ne_of_gt (Nat.zero_lt_of_lt enough))
      have delimited :=
        delimited_following spaced.after blank (.inr rfl) (members.map Member.part) rest
      have field := fails_named spells (fails _ delimited)
      rw [List.map_cons, following_cons, Member.lead_append]
      exact (yields_nextMember blankAfter spaced.front).bind_fails (field.bind _)

/-- The members between the braces of an object are read, up to the closing brace. -/
theorem Takes.gives_fields
    (takes : Takes step members state outcome)
    (blank : Blank within)
    (rest : List Char)
    {fuel : Nat}
    (enough : members.length < fuel) :
    (fields (named step) true fuel state).Gives (memberChars members within ++ '\x7d' :: rest)
      outcome ('\x7d' :: rest) := by
  obtain ⟨fuel, rfl⟩ := Nat.exists_eq_succ_of_ne_zero (Nat.ne_of_gt (Nat.zero_lt_of_lt enough))
  cases takes with
  | nil =>
      rw [memberChars_nil_append]
      exact (yields_lastField blank true).fields_nil
  | @cons name member members _ next _ spaced spells reads others =>
      have delimited :=
        delimited_following spaced.after blank (.inr rfl) (members.map Member.part) rest
      have more := others.gives_more spaced.after blank rest (Nat.lt_of_succ_lt_succ enough)
      have field := yields_named spells (reads _ delimited)
      rw [memberChars_cons_append, Member.lead_append]
      exact (yields_firstMember spaced.front).bind_gives (field.bind_gives more)
  | @fault name member members _ cause spaced spells fails =>
      have delimited :=
        delimited_following spaced.after blank (.inr rfl) (members.map Member.part) rest
      have field := fails_named spells (fails _ delimited)
      rw [memberChars_cons_append, Member.lead_append]
      exact (yields_firstMember spaced.front).bind_fails (field.bind _)

end

end SealedDirectory.Json.Reader
