import SealedDirectory.Proofs.Ident.Canonical
import SealedDirectory.Store.Cell
import Mathlib.Data.Set.List

/-!
# Identifiers and their kinds

The stored text of an identifier is the one text in the canonical form that is read as it,
so the store may compare texts instead of identifiers.  Texts with the mark of a kind are
another matter: nothing that begins with a mark is a bare identifier.  So a text that
carries the mark of one kind is refused as an identifier of another kind, and so is one
that carries its mark twice.
-/

namespace SealedDirectory

namespace Uuid

/-! ## Texts that are refused -/

section

variable {char : Char} {chars : List Char}

theorem ofPlain?_of_foreign
    (member : char ∈ chars)
    (foreign : digit? char = none) :
    ofPlain? chars = none := by
  have unread : chars.mapM digit? = none := by
    induction chars with
    | nil => cases member
    | cons first chars ih =>
        rcases List.mem_cons.mp member with rfl | member
        · simp [foreign]
        · simp [ih member]
  rw [ofPlain?, unread]
  rfl

/-- The first group is not empty, so its first character has to be a digit. -/
theorem ofHyphenated?_of_foreign
    (foreign : digit? char = none) :
    ofHyphenated? (char :: chars) = none := by
  cases found : unhyphenate groupSizes (char :: chars) with
  | none => rw [ofHyphenated?, found]; rfl
  | some joined =>
      have first : char ∈ joined := by
        rw [groupSizes, unhyphenate] at found
        split at found
        · split at found
          · obtain ⟨others, -, rfl⟩ := Option.map_eq_some_iff.mp found
            exact List.mem_append_left _ (List.mem_cons_self ..)
          · cases found
        · cases found
      rw [ofHyphenated?, found]
      exact ofPlain?_of_foreign first foreign

/-- Characters that begin with no digit and have nothing wrapped around them are refused. -/
theorem exists_ofChars_eq_error
    (foreign : digit? char = none)
    (bare : unwrap (char :: chars) = (char :: chars, 0)) :
    ∃ fault, ofChars (char :: chars) = .error fault := by
  refine ⟨faultOf (char :: chars), ?_⟩
  rw [ofChars, bare]
  simp [ofPlain?_of_foreign (List.mem_cons_self ..) foreign, ofHyphenated?_of_foreign foreign]

end

/-! ## The canonical form -/

/-- A digit from `0` to `9` or a letter from `a` to `f`. -/
def isLowercaseDigit (char : Char) : Bool :=
  ('0' ≤ char && char ≤ '9') || ('a' ≤ char && char ≤ 'f')

/--
A text is in the canonical form: lowercase digits in groups of 8, 4, 4, 4 and 12 with
hyphens between the groups.
-/
def Canonical (text : String) : Prop :=
  ∃ groups : List (List Char),
    text.toList = ['-'].intercalate groups ∧
    groups.map List.length = [8, 4, 4, 4, 12] ∧
    ∀ group ∈ groups, ∀ char ∈ group, isLowercaseDigit char = true

theorem isLowercaseDigit_iff
    {char : Char} :
    isLowercaseDigit char = true ↔ ∃ digit, char = digitChar digit := by
  constructor
  · intro lowercase
    have codes : ∀ code < 128, isLowercaseDigit (Char.ofNat code) = true →
        ∃ digit, Char.ofNat code = digitChar digit := by
      decide
    have small : char.toNat < 128 := by
      have atMost (bound : Char) (below : char ≤ bound) : char.toNat ≤ bound.toNat := below
      rw [isLowercaseDigit, Bool.or_eq_true, Bool.and_eq_true, Bool.and_eq_true,
        decide_eq_true_eq, decide_eq_true_eq, decide_eq_true_eq, decide_eq_true_eq] at lowercase
      rcases lowercase with number | letter
      · exact (atMost '9' number.2).trans_lt (by decide)
      · exact (atMost 'f' letter.2).trans_lt (by decide)
    have found := codes char.toNat small
    rw [Char.ofNat_toNat] at found
    exact found lowercase
  · rintro ⟨digit, rfl⟩
    revert digit
    decide

/-- Groups of the right sizes are what hyphens stand between. -/
theorem hyphenate_flatten
    {α : Type}
    (hyphen : α)
    (groups : List (List α))
    (last : List α) :
    hyphenate hyphen (groups.map List.length) (groups.flatten ++ last) =
      [hyphen].intercalate (groups ++ [last]) := by
  induction groups with
  | nil => simp [hyphenate]
  | cons group groups ih =>
      have some : groups ++ [last] ≠ [] := by simp
      rw [List.map_cons, List.flatten_cons, List.append_assoc, hyphenate, List.take_left,
        List.drop_left, ih, List.cons_append, List.intercalate_cons_of_ne_nil some]
      simp

theorem exists_groups
    {α : Type}
    (sizes : List Nat)
    (chars : List α)
    (enough : sizes.foldr (· + ·) 0 ≤ chars.length) :
    ∃ (groups : List (List α)) (last : List α),
      groups.map List.length = sizes ∧ groups.flatten ++ last = chars := by
  induction sizes generalizing chars with
  | nil => exact ⟨[], chars, rfl, rfl⟩
  | cons size sizes ih =>
      simp only [List.foldr_cons] at enough
      obtain ⟨groups, last, lengths, joined⟩ := ih (chars.drop size) (by
        simp only [List.length_drop]
        omega)
      refine ⟨chars.take size :: groups, last, ?_, ?_⟩
      · simp only [List.map_cons, List.length_take, lengths]
        rw [Nat.min_eq_left (by omega)]
      · rw [List.flatten_cons, List.append_assoc, joined, List.take_append_drop]

theorem canonical_text (uuid : Uuid) :
    Canonical uuid.text := by
  obtain ⟨groups, last, lengths, joined⟩ :=
    exists_groups groupSizes (uuid.digits.map digitChar) (by simp [groupSizes, uuid.complete])
  have written := hyphenate_flatten '-' groups last
  rw [lengths, joined] at written
  have lastLength : last.length = 12 := by
    have whole := congrArg List.length joined
    rw [List.length_append, List.length_flatten, lengths, List.length_map, uuid.complete,
      groupSizes] at whole
    simp at whole
    omega
  refine ⟨groups ++ [last], ?_, ?_, ?_⟩
  · rw [text, String.toList_ofList, chars, written]
  · rw [List.map_append, lengths]
    simp [groupSizes, lastLength]
  · intro group member char inGroup
    have isDigit : char ∈ uuid.digits.map digitChar := by
      rw [← joined]
      rw [List.mem_append, List.mem_singleton] at member
      rcases member with inGroups | rfl
      · exact List.mem_append_left _ (List.mem_flatten_of_mem inGroups inGroup)
      · exact List.mem_append_right _ inGroup
    obtain ⟨digit, -, rfl⟩ := List.mem_map.mp isDigit
    exact isLowercaseDigit_iff.mpr ⟨digit, rfl⟩

/-- There is nothing else in the canonical form. -/
theorem exists_text_of_canonical
    {written : String}
    (canonical : Canonical written) :
    ∃ uuid : Uuid, written = uuid.text := by
  obtain ⟨groups, grouped, lengths, lowercase⟩ := canonical
  obtain ⟨first, last, rfl⟩ : ∃ first last, groups = first ++ [last] := by
    refine ⟨_, _, (List.dropLast_append_getLast (l := groups) ?_).symm⟩
    rintro rfl
    cases lengths
  rw [List.map_append, List.map_singleton] at lengths
  have sizes : first.map List.length = groupSizes ∧ [last.length] = [12] :=
    List.append_inj' (show _ ++ _ = groupSizes ++ [12] from lengths) rfl
  have digits : first.flatten ++ last ∈ Set.range (List.map digitChar) := by
    rw [Set.range_list_map]
    intro char member
    have inGroup : ∃ group ∈ first ++ [last], char ∈ group :=
      List.mem_flatten.mp (by simpa using member)
    obtain ⟨group, isGroup, inGroup⟩ := inGroup
    obtain ⟨digit, rfl⟩ := isLowercaseDigit_iff.mp (lowercase group isGroup char inGroup)
    exact ⟨digit, rfl⟩
  obtain ⟨digits, joined⟩ := digits
  have complete : digits.length = 32 := by
    have whole := congrArg List.length joined
    rw [List.length_map, List.length_append, List.length_flatten, sizes.1,
      List.cons.inj sizes.2 |>.1] at whole
    exact whole
  refine ⟨⟨digits, complete⟩, ?_⟩
  rw [← String.toList_inj, grouped, text, String.toList_ofList, chars, joined, ← sizes.1,
    hyphenate_flatten]

/-- The canonical text is the one in the canonical form that is read as its identifier. -/
theorem eq_text_iff
    {written : String}
    {uuid : Uuid} :
    written = uuid.text ↔ Canonical written ∧ parse written = .ok uuid := by
  constructor
  · rintro rfl
    exact ⟨canonical_text uuid, parse_text uuid⟩
  · rintro ⟨canonical, read⟩
    obtain ⟨other, rfl⟩ := exists_text_of_canonical canonical
    rw [parse_text] at read
    rw [Except.ok.inj read]

end Uuid

/-! ## Marks of kinds -/

theorem IdKind.mark_injective : Function.Injective IdKind.mark := by
  intro kind other same
  cases kind <;> cases other <;> first | rfl | cases same

theorem IdKind.length_mark (kind : IdKind) :
    kind.mark.length = 4 := by
  cases kind <;> rfl

namespace Id

variable {kind : IdKind}

/-- Behind the mark of a kind nothing is read as a bare identifier. -/
theorem exists_ofChars_mark_eq_error
    (kind : IdKind)
    (chars : List Char) :
    ∃ fault, Uuid.ofChars (kind.mark ++ chars) = .error fault := by
  have letters : ∃ letter rest, kind.mark = letter :: rest ∧ Uuid.digit? letter = none ∧
      letter ≠ '\x7b' := by
    cases kind <;> exact ⟨_, _, rfl, by decide, by decide⟩
  -- The mark of users begins as the mark of names does, but only with one letter.
  have noUrn : ((kind.mark ++ chars).take 9).map Char.toLower ≠ Uuid.urnMark := by
    intro same
    have urn : Uuid.urnMark.take 2 = ['u', 'r'] := by rfl
    have begins := congrArg (List.take 2) same
    have inMark : (kind.mark ++ chars).take 2 = kind.mark.take 2 :=
      List.take_append_of_le_length (by rw [kind.length_mark]; decide)
    rw [← List.map_take, List.take_take, Nat.min_eq_left (by decide), urn, inMark] at begins
    exact absurd begins (by cases kind <;> decide)
  obtain ⟨letter, rest, mark, foreign, noBrace⟩ := letters
  rw [mark, List.cons_append] at noUrn ⊢
  apply Uuid.exists_ofChars_eq_error foreign
  rw [Uuid.unwrap, if_neg (by simp [noBrace]), if_neg noUrn]

theorem withoutMark_mark
    (kind : IdKind)
    (chars : List Char) :
    withoutMark kind (kind.mark ++ chars) = chars := by
  rw [withoutMark, if_pos (List.isPrefixOf_iff_prefix.mpr (List.prefix_append _ _)),
    List.drop_left]

/-- Marks are equally long, so characters begin with at most one of them. -/
theorem withoutMark_other
    {other : IdKind}
    (differ : other ≠ kind)
    (chars : List Char) :
    withoutMark other (kind.mark ++ chars) = kind.mark ++ chars := by
  refine if_neg fun isMarked => differ (IdKind.mark_injective ?_)
  have sized : other.mark.length = kind.mark.length := by
    rw [other.length_mark, kind.length_mark]
  exact (List.prefix_of_prefix_length_le (List.isPrefixOf_iff_prefix.mp isMarked)
    (List.prefix_append _ _) sized.le).eq_of_length sized

/-- What carries the mark of one kind is no identifier of another one. -/
theorem exists_parse_other_eq_error
    {other : IdKind}
    (differ : other ≠ kind)
    (id : Id kind) :
    ∃ fault, parse other id.display = .error fault := by
  obtain ⟨fault, refused⟩ := exists_ofChars_mark_eq_error kind id.uuid.chars
  refine ⟨fault, ?_⟩
  rw [parse, display, String.toList_ofList, withoutMark_other differ, refused]
  rfl

theorem exists_parse_twice_eq_error
    (kind : IdKind)
    (written : String) :
    ∃ fault, parse kind (String.ofList (kind.mark ++ kind.mark) ++ written) =
      .error fault := by
  obtain ⟨fault, refused⟩ := exists_ofChars_mark_eq_error kind written.toList
  refine ⟨fault, ?_⟩
  rw [parse, String.toList_append, String.toList_ofList, List.append_assoc, withoutMark_mark,
    refused]
  rfl

/-! ## Stored texts -/

theorem convert_content (id : Id kind) :
    Storable.convert (Storable.content id) = .ok id := by
  simp only [Storable.convert, Storable.content, bare, Uuid.parse_text]

theorem content_injective :
    Function.Injective (Storable.content : Id kind → Content) := by
  intro left right same
  exact bare_injective (Content.text.inj same)

/-! ## The main statement -/

/--
An identifier is read back from its text with its mark, from its bare text and from what is
stored of it.  What is stored is the one text in the canonical form that is read as the
identifier, so identifiers are equal exactly if the same is stored of them.  The text with
the mark is no identifier of another kind; and whatever text is read as an identifier is
refused with the mark twice before it.
-/
theorem texts_of_identifiers_are_read_back_and_kept_apart
    (kind : IdKind)
    (id : Id kind) :
    parse kind id.display = .ok id ∧
    parse kind id.bare = .ok id ∧
    Storable.content id = .text id.bare ∧
    Storable.convert (Storable.content id) = .ok id ∧
    (∀ written, written = id.bare ↔
      Uuid.Canonical written ∧ Uuid.parse written = .ok id.uuid) ∧
    (∀ other : Id kind, id = other ↔ Storable.content id = Storable.content other) ∧
    (∀ other ≠ kind, ∃ fault, parse other id.display = .error fault) ∧
    ∀ written found, parse kind written = .ok found →
      parse kind found.display = .ok found ∧
      ∃ fault, parse kind (String.ofList (kind.mark ++ kind.mark) ++ written) =
        .error fault :=
  ⟨parse_display id, parse_bare id, rfl, convert_content id, fun _ => Uuid.eq_text_iff,
    fun _ => content_injective.eq_iff.symm, fun _ differ => exists_parse_other_eq_error differ id,
    fun written found _ => ⟨parse_display found, exists_parse_twice_eq_error kind written⟩⟩

/-- A user in braces and capital letters, who is no organization and has one mark. -/
theorem user_in_capital_letters_is_no_organization :
    let written := "usr-\x7bABCDEF01-2345-6789-ABCD-EF0123456789\x7d"
    ∃ id : UserId,
      parse .user written = .ok id ∧ IdKind.org ≠ .user ∧
      parse .user id.display = .ok id ∧
      (∃ fault, parse .org id.display = .error fault) ∧
      ∃ fault, parse .user (String.ofList (IdKind.user.mark ++ IdKind.user.mark) ++ written) =
        .error fault := by
  let id : UserId := ⟨⟨[10, 11, 12, 13, 14, 15, 0, 1, 2, 3, 4, 5, 6, 7, 8, 9, 10, 11, 12, 13, 14,
    15, 0, 1, 2, 3, 4, 5, 6, 7, 8, 9], rfl⟩⟩
  have accepted : parse .user "usr-\x7bABCDEF01-2345-6789-ABCD-EF0123456789\x7d" = .ok id := by
    rfl
  obtain ⟨-, -, -, -, -, -, others, twice⟩ :=
    texts_of_identifiers_are_read_back_and_kept_apart .user id
  have refused := twice _ id accepted
  exact ⟨id, accepted, by decide, refused.1, others .org (by decide), refused.2⟩

end Id

end SealedDirectory
