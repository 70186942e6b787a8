import SealedDirectory.Ident.Id
import SealedDirectory.Proofs.Text.Trim
import Mathlib.Data.List.Basic

/-!
# Canonical texts of identifiers

The canonical text of an identifier is read back as that identifier, so different
identifiers have different canonical texts.  With the mark of its kind before it the text is
read back as well, and neither text has blanks around it.
-/

namespace SealedDirectory

namespace Uuid

/-- Every digit is read back from its lowercase character. -/
@[simp]
theorem digit?_digitChar (digit : Fin 16) :
    digit? (digitChar digit) = some digit := by
  revert digit
  decide

theorem ofPlain?_map_digitChar (uuid : Uuid) :
    ofPlain? (uuid.digits.map digitChar) = some uuid := by
  have digits :
      (uuid.digits.map digitChar).mapM digit? = some uuid.digits := by
    induction uuid.digits with
    | nil => rfl
    | cons digit rest ih => simp [ih]
  simp [ofPlain?, digits, ofDigits?, uuid.complete]

/-- Hyphens that were put between groups are found there again. -/
theorem unhyphenate_hyphenate
    (sizes : List Nat) (chars : List Char)
    (enough : sizes.foldr (· + ·) 0 ≤ chars.length) :
    unhyphenate sizes (hyphenate '-' sizes chars) = some chars := by
  induction sizes generalizing chars with
  | nil => rfl
  | cons size sizes ih =>
      simp only [List.foldr_cons] at enough
      have whole : (chars.take size).length = size := by
        simp only [List.length_take]
        omega
      have after :
          (hyphenate '-' (size :: sizes) chars).drop size =
            '-' :: hyphenate '-' sizes (chars.drop size) := by
        rw [hyphenate, List.drop_append_of_le_length (by omega),
          List.drop_of_length_le (by omega), List.nil_append]
      have taken :
          (hyphenate '-' (size :: sizes) chars).take size = chars.take size := by
        rw [hyphenate, List.take_append_of_le_length (by omega), List.take_take,
          Nat.min_self]
      have rest := ih (chars.drop size) (by
        simp only [List.length_drop]
        omega)
      rw [unhyphenate, after]
      simp [taken, rest, whole]

@[simp]
theorem ofHyphenated?_chars (uuid : Uuid) :
    ofHyphenated? uuid.chars = some uuid := by
  have enough :
      groupSizes.foldr (· + ·) 0 ≤ (uuid.digits.map digitChar).length := by
    simp [groupSizes, uuid.complete]
  rw [ofHyphenated?, chars, unhyphenate_hyphenate _ _ enough]
  exact ofPlain?_map_digitChar uuid

/-- The canonical text begins with a digit, so nothing is wrapped around it. -/
theorem unwrap_chars (uuid : Uuid) :
    unwrap uuid.chars = (uuid.chars, 0) := by
  have noWrap : ∀ digit : Fin 16,
      digitChar digit ≠ '\x7b' ∧ (digitChar digit).toLower ≠ 'u' := by
    decide
  cases begins : uuid.digits with
  | nil =>
      have complete := uuid.complete
      rw [begins] at complete
      cases complete
  | cons digit digits =>
      obtain ⟨noBrace, noMark⟩ := noWrap digit
      have first : ∃ others, uuid.chars = digitChar digit :: others := by
        simp [chars, groupSizes, hyphenate, begins]
      obtain ⟨others, first⟩ := first
      have unmarked : ((digitChar digit :: others).take 9).map Char.toLower ≠ urnMark := by
        intro same
        have mark : urnMark.head? = some 'u' := by rfl
        have heads := congrArg List.head? same
        rw [List.take_succ_cons, List.map_cons, List.head?_cons, mark] at heads
        exact noMark (Option.some.inj heads)
      rw [unwrap, first, if_neg (by simp [noBrace]), if_neg unmarked]

/-- A text with hyphens is not one of digits in a row. -/
theorem ofPlain?_chars (uuid : Uuid) :
    ofPlain? uuid.chars = none := by
  have hyphen : digit? '-' = none := by decide
  simp [ofPlain?, chars, groupSizes, hyphenate, hyphen]

theorem ofChars_chars (uuid : Uuid) :
    ofChars uuid.chars = .ok uuid := by
  simp [ofChars, unwrap_chars, ofPlain?_chars]

@[simp]
theorem parse_text (uuid : Uuid) :
    parse uuid.text = .ok uuid := by
  rw [parse, text, String.toList_ofList, ofChars_chars]

theorem text_injective : Function.Injective text := by
  intro left right same
  have chars : left.chars = right.chars := by
    simpa [text] using congrArg String.toList same
  have read := congrArg ofHyphenated? chars
  simpa using read

theorem mem_hyphenate
    {sizes : List Nat}
    {chars : List Char}
    {char : Char}
    (member : char ∈ hyphenate '-' sizes chars) :
    char = '-' ∨ char ∈ chars := by
  induction sizes generalizing chars with
  | nil => exact .inr member
  | cons size sizes ih =>
      rw [hyphenate, List.mem_append, List.mem_cons] at member
      rcases member with early | here | late
      · exact .inr (List.mem_of_mem_take early)
      · exact .inl here
      · exact (ih late).imp_right List.mem_of_mem_drop

/-- The canonical text is made of digits and hyphens. -/
theorem mem_chars
    {uuid : Uuid}
    {char : Char}
    (member : char ∈ uuid.chars) :
    char = '-' ∨ ∃ digit, char = digitChar digit := by
  refine (mem_hyphenate member).imp_right fun isDigit => ?_
  rcases List.mem_map.mp isDigit with ⟨digit, -, rfl⟩
  exact ⟨digit, rfl⟩

theorem isBlank_of_mem_chars
    {uuid : Uuid}
    {char : Char}
    (member : char ∈ uuid.chars) :
    Text.isBlank char = false := by
  have solid : ∀ digit, Text.isBlank (digitChar digit) = false := by decide
  rcases mem_chars member with rfl | ⟨digit, rfl⟩
  · rfl
  · exact solid digit

end Uuid

namespace Id

variable {kind : IdKind}

/-- No mark of a kind begins with a digit or a hyphen, so none is taken from a bare text. -/
theorem withoutMark_chars (kind : IdKind) (uuid : Uuid) :
    withoutMark kind uuid.chars = uuid.chars := by
  have letters : ∃ letter rest, kind.mark = letter :: rest ∧ letter ≠ '-' ∧
      ∀ digit, Uuid.digitChar digit ≠ letter := by
    cases kind <;> exact ⟨_, _, rfl, by decide, by decide⟩
  rcases letters with ⟨letter, rest, mark, noHyphen, noDigit⟩
  refine if_neg fun isMarked => ?_
  rw [List.isPrefixOf_iff_prefix, mark] at isMarked
  have first : letter ∈ uuid.chars := isMarked.subset (List.mem_cons_self ..)
  rcases Uuid.mem_chars first with here | ⟨digit, here⟩
  · exact noHyphen here
  · exact noDigit digit here.symm

theorem parse_bare (id : Id kind) : parse kind id.bare = .ok id := by
  rw [parse, bare, Uuid.text, String.toList_ofList, withoutMark_chars, Uuid.ofChars_chars]
  rfl

theorem parse_display (id : Id kind) : parse kind id.display = .ok id := by
  have unmarked : withoutMark kind (kind.mark ++ id.uuid.chars) = id.uuid.chars := by
    rw [withoutMark, if_pos (List.isPrefixOf_iff_prefix.mpr (List.prefix_append _ _)),
      List.drop_left]
  rw [parse, display, String.toList_ofList, unmarked, Uuid.ofChars_chars]
  rfl

theorem trimmed_bare (id : Id kind) : Text.Trimmed id.bare := by
  apply Text.trimmed_of_solid
  intro char member
  rw [bare, Uuid.text, String.toList_ofList] at member
  exact Uuid.isBlank_of_mem_chars member

theorem trimmed_display (id : Id kind) : Text.Trimmed id.display := by
  apply Text.trimmed_of_solid
  intro char member
  rw [display, String.toList_ofList, List.mem_append] at member
  have solid : kind.mark.all (fun char => !Text.isBlank char) = true := by
    cases kind <;> rfl
  rcases member with inMark | inChars
  · simpa using List.all_eq_true.mp solid char inMark
  · exact Uuid.isBlank_of_mem_chars inChars

theorem uuid_injective : Function.Injective (uuid : Id kind → Uuid) := by
  rintro ⟨left⟩ ⟨right⟩ same
  exact congrArg Id.mk same

theorem bare_injective : Function.Injective (bare : Id kind → String) :=
  Uuid.text_injective.comp uuid_injective

end Id

end SealedDirectory
