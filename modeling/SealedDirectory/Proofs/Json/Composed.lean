import SealedDirectory.Proofs.Json.Nested

/-!
# Reading numbers, choices and lists back

The remaining ways to compose codecs: whole numbers within a range, words of which there
are a few, values that may be missing, and lists.  A missing value is known by the first
letter of its word, so what is printed for a value that is there must not begin with that
letter; and a list is known to end by its bracket, so no item may begin with one.
-/

namespace SealedDirectory.Json

open Reader

namespace Reader

variable {blanks rest : List Char}

theorem yields_token?
    {char : Char}
    (blank : Blank blanks)
    (solid : isSpace char = false) :
    peekToken?.Yields (blanks ++ char :: rest) (some char) (char :: rest) :=
  (yields_takeWhile blanks blank (by simpa using solid)).bind (yields_peek? _)

end Reader

namespace Codec

variable
  {α : Type}
  {layout : Layout}
  {depth : Nat}

theorem readsBack_text
    (value : String)
    (layout : Layout)
    (depth : Nat) :
    text.ReadsBack layout depth value :=
  readsBack_textForm rfl

/-- A whole number within its range is read back, if it fits into sixty-four bits. -/
theorem readsBack_integerBetween
    {low high value : Int}
    (expected : String)
    (within : low ≤ value ∧ value ≤ high)
    (inRange : InRange value)
    (layout : Layout)
    (depth : Nat) :
    (integerBetween expected low high).ReadsBack layout depth value := by
  intro level blanks rest blank delimited
  obtain ⟨char, others, begins, isNumber, solid, -⟩ := integerChars_head value
  have reads := yields_number inRange delimited
  have accepted : bounded expected low high (.integer value) = .ok value := if_pos within
  show Yields _ (blanks ++ (integerChars value ++ rest)) _ _
  rw [begins, List.cons_append] at reads ⊢
  apply (yields_token blank .endOfValue solid).bind
  rw [if_pos isNumber]
  apply reads.bind
  rw [accepted]
  exact yields_pure _ _

/-- The whole numbers of sixty-four bits with a sign. -/
structure IsInt64 (value : Int) : Prop where
  least : -9223372036854775808 ≤ value
  greatest : value ≤ 9223372036854775807

theorem readsBack_int64
    {value : Int}
    (fits : IsInt64 value)
    (layout : Layout)
    (depth : Nat) :
    int64.ReadsBack layout depth value :=
  readsBack_integerBetween "i64" ⟨fits.least, fits.greatest⟩
    ⟨fits.least, Int.le_trans fits.greatest (by decide)⟩ layout depth

/-- A value with a rule is read back if what it is written as is read back and accepted. -/
theorem readsBack_guarded
    {β : Type}
    {codec : Codec β}
    {write : α → β}
    {accept : β → Except String α}
    {value : α}
    (back : codec.ReadsBack layout depth (write value))
    (accepted : accept (write value) = .ok value) :
    (codec.guarded write accept).ReadsBack layout depth value := by
  intro level blanks rest blank delimited
  apply (back level blanks rest blank delimited).bind
  rw [accepted]
  exact yields_pure _ _

theorem readsBack_word32
    (word : UInt32)
    (layout : Layout)
    (depth : Nat) :
    word32.ReadsBack layout depth word := by
  have small : word.toNat < 4294967296 := word.toNat_lt
  have inRange : InRange word.toNat := ⟨by omega, by omega⟩
  have number : (integerBetween "u32" 0 4294967295).ReadsBack layout depth word.toNat :=
    readsBack_integerBetween "u32" (by omega) inRange layout depth
  refine readsBack_guarded number ?_
  rw [Int.toNat_natCast, UInt32.ofNat_toNat]

theorem readsBack_oneOf
    {expected : String}
    {write : α → String}
    {find : String → Option α}
    {value : α}
    (found : find (write value) = some value) :
    (oneOf expected write find).ReadsBack layout depth value := by
  intro level blanks rest blank delimited
  show Yields _ (blanks ++ (textChars (write value) ++ rest)) _ _
  rw [textChars_append]
  apply (yields_token blank .endOfValue rfl).bind
  rw [if_neg (by decide), if_pos rfl]
  apply (yields_peekToken .endOfValue rfl).bind
  rw [if_pos rfl, ← textChars_append]
  apply (yields_name _ _).bind
  rw [found]
  exact yields_pure _ _

theorem readsBack_none
    (codec : Codec α)
    (layout : Layout)
    (depth : Nat) :
    codec.optional.ReadsBack layout depth none := by
  intro level blanks rest blank delimited
  apply (yields_token? blank rfl).bind
  rw [if_pos rfl]
  exact (yields_skip _ _).bind ((yields_word ['u', 'l', 'l'] rest).bind (yields_pure _ _))

/-- A value that is there is read back, unless it could be taken for one that is not. -/
theorem readsBack_some
    {codec : Codec α}
    {value : α}
    (back : codec.ReadsBack layout depth value)
    (begins : ∀ level, ∃ char others,
      chars layout level (codec.write value) = char :: others ∧ isSpace char = false ∧
        char ≠ 'n') :
    codec.optional.ReadsBack layout depth (some value) := by
  intro level blanks rest blank delimited
  obtain ⟨char, others, printed, solid, noNull⟩ := begins level
  have reads := back level [] rest blank_nil delimited
  show Yields _ (blanks ++ (chars layout level (codec.write value) ++ rest)) _ _
  rw [List.nil_append, printed, List.cons_append] at reads
  rw [printed, List.cons_append]
  apply (yields_token? blank solid).bind
  rw [if_neg fun same => noNull (Option.some.inj same)]
  exact reads.bind (yields_pure _ _)

/-- An optional number is read back, whether or not it is there. -/
theorem readsBack_optional_int64
    {held : Option Int}
    (fits : ∀ value ∈ held, IsInt64 value)
    (layout : Layout)
    (depth : Nat) :
    int64.optional.ReadsBack layout depth held := by
  cases held with
  | none => exact readsBack_none int64 layout depth
  | some value =>
      apply readsBack_some (readsBack_int64 (fits value rfl) layout depth)
      intro level
      obtain ⟨char, others, begins, -, solid, noNull, -⟩ := integerChars_head value
      exact ⟨char, others, begins, solid, noNull⟩

/-- A list is read back one level higher than its items. -/
theorem readsBack_list
    {codec : Codec α}
    {values : List α}
    (loose : layout.Loose)
    (begins : ∀ value ∈ values, Begins layout (codec.write value))
    (back : ∀ value ∈ values, codec.ReadsBack layout (depth + 1) value) :
    codec.list.ReadsBack layout (depth + 2) values := by
  intro level blanks rest blank delimited
  have begun : ∀ item ∈ values.map codec.write, Begins layout item := by simpa using begins
  have shorter := length_le_within begun level
  rw [List.length_map] at shorter
  show Yields _ (blanks ++ (chars layout level (.list (values.map codec.write)) ++ rest)) _ _
  rw [chars_list]
  apply (yields_token blank .endOfValue rfl).bind
  rw [if_pos rfl]
  apply (yields_skip _ _).bind
  refine Yields.closing ?_ (yields_closeList rest)
  apply (yields_fuel _).bind
  apply yields_items loose begins back level rest
  rw [List.length_append]
  omega

end Codec

end SealedDirectory.Json
