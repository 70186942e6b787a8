import Mathlib.Tactic.SplitIfs
import SealedDirectory.Proofs.Json.Nested

/-!
# Texts and numbers in any form

What a printer writes is one form of many.  A text may have escapes that need not be there
and escapes that stand for no character, a number may have a fraction, an exponent and any
number of digits.  A reader that only has to get past them stops where they end.
-/

namespace SealedDirectory.Json.Reader

/-! ## Texts -/

/-- Characters between the quotes of a text. -/
inductive Quoted : List Char → Prop
  | nil : Quoted []
  | plain
      {char : Char}
      {others : List Char}
      (noQuote : char ≠ '"')
      (noSlash : char ≠ '\\')
      (visible : 32 ≤ char.toNat)
      (quoted : Quoted others) :
      Quoted (char :: others)
  | short
      {letter : Char}
      {others : List Char}
      (known : (shortEscape? letter).isSome = true)
      (quoted : Quoted others) :
      Quoted ('\\' :: letter :: others)
  | numbered
      {first second third fourth : Char}
      {others : List Char}
      (digits : (fourDigits? [first, second, third, fourth]).isSome = true)
      (quoted : Quoted others) :
      Quoted ('\\' :: 'u' :: first :: second :: third :: fourth :: others)

theorem yields_hexEscape
    {first second third fourth : Char}
    {number : Nat}
    (digits : fourDigits? [first, second, third, fourth] = some number)
    (rest : List Char) :
    hexEscape.Yields (first :: second :: third :: fourth :: rest) number rest := by
  have enough : ¬ size [first, second, third, fourth] < 4 := by
    have positive := Char.utf8Size_pos
    have one := positive first
    have two := positive second
    have three := positive third
    have four := positive fourth
    simp only [size, List.foldl_cons, List.foldl_nil]
    omega
  have front : (first :: second :: third :: fourth :: rest).take 4 =
      [first, second, third, fourth] := rfl
  apply Yields.of_cursor
  intro passed
  simp only [front, enough, digits, if_false]
  exact fun _ => ⟨passed + 4, rfl⟩

/-- The rest of a text is passed over up to its closing quote. -/
theorem Quoted.yields_skipQuoted
    {chars : List Char}
    (quoted : Quoted chars)
    (rest : List Char)
    {fuel : Nat}
    (enough : chars.length < fuel) :
    (skipQuoted fuel).Yields (chars ++ '"' :: rest) () rest := by
  induction quoted generalizing fuel with
  | nil =>
      obtain ⟨fuel, rfl⟩ := Nat.exists_eq_succ_of_ne_zero (Nat.ne_of_gt enough)
      exact (yields_peek? _).bind (yields_skip '"' rest)
  | @plain char others noQuote noSlash visible quoted ih =>
      obtain ⟨fuel, rfl⟩ := Nat.exists_eq_succ_of_ne_zero (Nat.ne_of_gt (Nat.zero_lt_of_lt enough))
      apply (yields_peek? _).bind
      simp only [List.cons_append, List.head?_cons, noQuote, noSlash, Nat.not_lt.mpr visible,
        if_false]
      exact (yields_skip char _).bind (ih (Nat.lt_of_succ_lt_succ enough))
  | @short letter others known quoted ih =>
      obtain ⟨fuel, rfl⟩ := Nat.exists_eq_succ_of_ne_zero (Nat.ne_of_gt (Nat.zero_lt_of_lt enough))
      have noNumber : letter ≠ 'u' := by
        rintro rfl
        exact absurd known (by decide)
      have isKnown : (shortEscape? letter).isNone = false := by
        rw [Option.isNone_eq_false_iff, known]
      apply (yields_peek? _).bind
      apply (yields_skip '\\' _).bind
      apply Yields.of_cursor
      intro passed
      apply (yields_next? letter _).bind
      simp only [noNumber, isKnown, if_false]
      exact ih (by simp only [List.length_cons] at enough; omega)
  | @numbered first second third fourth others digits quoted ih =>
      obtain ⟨fuel, rfl⟩ := Nat.exists_eq_succ_of_ne_zero (Nat.ne_of_gt (Nat.zero_lt_of_lt enough))
      obtain ⟨number, digits⟩ := Option.isSome_iff_exists.mp digits
      apply (yields_peek? _).bind
      apply (yields_skip '\\' _).bind
      apply Yields.of_cursor
      intro passed
      apply (yields_next? 'u' _).bind
      simp only [if_true]
      apply (yields_hexEscape digits _).bind
      exact ih (by simp only [List.length_cons] at enough; omega)

/-! ## Names -/

/--
Characters between the quotes of a text, and the text they spell.  Any character may be
spelled by its number, and one beyond the basic ones by the numbers of two halves.
-/
inductive Spells : (written text : List Char) → Prop
  | nil : Spells [] []
  | plain
      {char : Char}
      {written text : List Char}
      (noQuote : char ≠ '"')
      (noSlash : char ≠ '\\')
      (visible : 32 ≤ char.toNat)
      (others : Spells written text) :
      Spells (char :: written) (char :: text)
  | short
      {letter char : Char}
      {written text : List Char}
      (stands : shortEscape? letter = some char)
      (others : Spells written text) :
      Spells ('\\' :: letter :: written) (char :: text)
  | numbered
      {first second third fourth : Char}
      {number : Nat}
      {written text : List Char}
      (digits : fourDigits? [first, second, third, fourth] = some number)
      (noHalf : number < 0xd800 ∨ 0xdfff < number)
      (others : Spells written text) :
      Spells ('\\' :: 'u' :: first :: second :: third :: fourth :: written)
        (Char.ofNat number :: text)
  | paired
      {first second third fourth first' second' third' fourth' : Char}
      {high low : Nat}
      {written text : List Char}
      (highDigits : fourDigits? [first, second, third, fourth] = some high)
      (isHigh : 0xd800 ≤ high ∧ high ≤ 0xdbff)
      (lowDigits : fourDigits? [first', second', third', fourth'] = some low)
      (isLow : 0xdc00 ≤ low ∧ low ≤ 0xdfff)
      (others : Spells written text) :
      Spells
        ('\\' :: 'u' :: first :: second :: third :: fourth ::
          '\\' :: 'u' :: first' :: second' :: third' :: fourth' :: written)
        (Char.ofNat ((high - 0xd800) * 0x400 + (low - 0xdc00) + 0x10000) :: text)

theorem yields_expectInEscape
    (expected : Char)
    (rest : List Char) :
    (expectInEscape expected).Yields (expected :: rest) () rest := by
  apply (yields_peek? _).bind
  simp only [List.head?_cons, if_true]
  exact yields_skip expected rest

theorem yields_escape_numbered
    {chars rest : List Char}
    {char : Char}
    (reads : numberedChar.Yields chars char rest) :
    escape.Yields ('u' :: chars) char rest := by
  apply Yields.of_cursor
  intro passed
  exact (yields_next? 'u' _).bind reads

/-- A text is read from whatever spells it, up to its closing quote. -/
theorem Spells.yields_quotedChars
    {written text : List Char}
    (spells : Spells written text)
    (rest : List Char)
    {fuel : Nat}
    (enough : written.length < fuel) :
    (quotedChars fuel).Yields (written ++ '"' :: rest) text rest := by
  induction spells generalizing fuel with
  | nil =>
      obtain ⟨fuel, rfl⟩ := Nat.exists_eq_succ_of_ne_zero (Nat.ne_of_gt enough)
      exact (yields_next? '"' rest).bind (yields_pure _ _)
  | @plain char written text noQuote noSlash visible others ih =>
      obtain ⟨fuel, rfl⟩ := Nat.exists_eq_succ_of_ne_zero (Nat.ne_of_gt (Nat.zero_lt_of_lt enough))
      apply (yields_next? char _).bind
      simp only [noQuote, noSlash, if_false, Nat.not_lt.mpr visible]
      exact (ih (Nat.lt_of_succ_lt_succ enough)).bind (yields_pure _ _)
  | @short letter char written text stands others ih =>
      obtain ⟨fuel, rfl⟩ := Nat.exists_eq_succ_of_ne_zero (Nat.ne_of_gt (Nat.zero_lt_of_lt enough))
      have shorter : written.length < fuel := by
        simp only [List.length_cons] at enough
        omega
      exact yields_quotedChars_escape [letter] (yields_escape stands) (ih shorter)
  | @numbered first second third fourth number written text digits noHalf others ih =>
      obtain ⟨fuel, rfl⟩ := Nat.exists_eq_succ_of_ne_zero (Nat.ne_of_gt (Nat.zero_lt_of_lt enough))
      have shorter : written.length < fuel := by
        simp only [List.length_cons] at enough
        omega
      refine yields_quotedChars_escape ['u', first, second, third, fourth]
        (yields_escape_numbered ?_) (ih shorter)
      apply (yields_hexEscape digits _).bind
      rw [if_neg (by omega), if_neg (by omega)]
      exact yields_pure _ _
  | @paired first second third fourth first' second' third' fourth' high low written text
      highDigits isHigh lowDigits isLow others ih =>
      obtain ⟨fuel, rfl⟩ := Nat.exists_eq_succ_of_ne_zero (Nat.ne_of_gt (Nat.zero_lt_of_lt enough))
      have shorter : written.length < fuel := by
        simp only [List.length_cons] at enough
        omega
      refine yields_quotedChars_escape
        ['u', first, second, third, fourth, '\\', 'u', first', second', third', fourth']
        (yields_escape_numbered ?_) (ih shorter)
      apply (yields_hexEscape highDigits _).bind
      rw [if_neg (by omega), if_pos isHigh]
      apply (yields_expectInEscape '\\' _).bind
      apply (yields_expectInEscape 'u' _).bind
      apply (yields_hexEscape lowDigits _).bind
      rw [if_neg (by omega)]
      exact yields_pure _ _

/-- A name is read from whatever spells it. -/
theorem Spells.yields_name
    {written : List Char}
    {text : String}
    (spells : Spells written text.toList)
    (rest : List Char) :
    name.Yields ('"' :: (written ++ '"' :: rest)) text rest := by
  apply (yields_skip '"' _).bind
  apply Yields.of_cursor
  intro passed
  refine (spells.yields_quotedChars rest ?_).bind ?_
  · simp only [List.length_append]
    omega
  · rw [String.ofList_toList]
    exact yields_pure _ _

/-- What is written for a character spells it. -/
theorem Spells.escaped_append
    {written text : List Char}
    (others : Spells written text)
    (char : Char) :
    Spells (escaped char ++ written) (char :: text) := by
  have isNumber (number : Nat) (same : char.toNat = number) : Char.ofNat number = char := by
    rw [← same, Char.ofNat_toNat]
  rw [escaped]
  split_ifs with quote slash visible backspace tab newline feed carriage
  · subst quote
    exact .short rfl others
  · subst slash
    exact .short rfl others
  · exact .plain quote slash visible others
  · exact .short (congrArg some (isNumber 8 backspace)) others
  · exact .short (congrArg some (isNumber 9 tab)) others
  · exact .short (congrArg some (isNumber 10 newline)) others
  · exact .short (congrArg some (isNumber 12 feed)) others
  · exact .short (congrArg some (isNumber 13 carriage)) others
  · have digits : ∀ number < 32,
        fourDigits? ['0', '0', Bytes.hexDigit (number / 16), Bytes.hexDigit (number % 16)] =
          some number := by
      decide
    have small : char.toNat < 32 := Nat.lt_of_not_le visible
    have spelled := Spells.numbered (digits char.toNat small) (.inl (by omega)) others
    rwa [Char.ofNat_toNat] at spelled

/-- What is written for a text spells it. -/
theorem spells_escaped (text : List Char) :
    Spells (text.flatMap escaped) text := by
  induction text with
  | nil => exact .nil
  | cons char text ih =>
      rw [List.flatMap_cons]
      exact ih.escaped_append char

/-! ## Numbers -/

/-- One digit or more. -/
structure IsDigits (chars : List Char) : Prop where
  filled : chars ≠ []
  digits : ∀ char ∈ chars, char.isDigit = true

/-- Digits before the point, with no zero in front of another one. -/
inductive IsWhole : List Char → Prop
  | zero : IsWhole ['0']
  | digits
      {chars : List Char}
      (digits : IsDigits chars)
      (noZero : chars.head? ≠ some '0') :
      IsWhole chars

inductive IsFraction : List Char → Prop
  | empty : IsFraction []
  | point
      {chars : List Char}
      (digits : IsDigits chars) :
      IsFraction ('.' :: chars)

inductive IsExponent : List Char → Prop
  | empty : IsExponent []
  | power
      {letter : Char}
      {sign chars : List Char}
      (isLetter : letter = 'e' ∨ letter = 'E')
      (isSign : sign = [] ∨ sign = ['+'] ∨ sign = ['-'])
      (digits : IsDigits chars) :
      IsExponent (letter :: (sign ++ chars))

/-- A number of any size, in any form. -/
inductive IsNumeral : List Char → Prop
  | mk
      {sign whole fraction exponent : List Char}
      (isSign : sign = [] ∨ sign = ['-'])
      (isWhole : IsWhole whole)
      (isFraction : IsFraction fraction)
      (isExponent : IsExponent exponent) :
      IsNumeral (sign ++ (whole ++ (fraction ++ exponent)))

/-- What follows is not a digit. -/
def Undigited (rest : List Char) : Prop :=
  ∀ char ∈ rest.head?, char.isDigit = false

section

variable {chars rest : List Char}

theorem IsDigits.yields_takeWhile
    (digits : IsDigits chars)
    (ends : Undigited rest) :
    (takeWhile Char.isDigit).Yields (chars ++ rest) chars rest :=
  Reader.yields_takeWhile chars digits.digits ends

theorem IsWhole.yields_wholeDigits
    (whole : IsWhole chars)
    (atEnd : Cause)
    (ends : Undigited rest) :
    (wholeDigits atEnd).Yields (chars ++ rest) chars rest := by
  apply Yields.of_cursor
  intro passed
  cases whole with
  | zero =>
      apply (yields_peek? _).bind
      apply (yields_skip '0' rest).bind
      apply (yields_peek? rest).bind
      cases isHead : rest.head? with
      | none => exact yields_pure _ _
      | some char =>
          simp only [ends char isHead]
          exact yields_pure _ _
  | digits digits noZero =>
      have reads := digits.yields_takeWhile ends
      obtain ⟨char, others, rfl⟩ := List.exists_cons_of_ne_nil digits.filled
      have digit := digits.digits char (List.mem_cons_self ..)
      have other : char ≠ '0' := fun same => noZero (by rw [same, List.head?_cons])
      apply (yields_peek? _).bind
      simp only [List.cons_append, List.head?_cons, other, digit, if_true, if_false]
      exact reads

theorem IsFraction.yields_fractionDigits
    (fraction : IsFraction chars)
    (atEnd : Cause)
    (ends : Undigited rest)
    (noPoint : rest.head? ≠ some '.') :
    ∃ digits, (fractionDigits atEnd).Yields (chars ++ rest) digits rest := by
  cases fraction with
  | empty =>
      refine ⟨none, (yields_peek? _).bind ?_⟩
      simp only [List.nil_append, beq_eq_false_iff_ne.mpr noPoint]
      exact yields_pure _ _
  | @point chars digits =>
      have filled : chars.isEmpty = false := by simpa using digits.filled
      refine ⟨some chars, (yields_peek? _).bind ?_⟩
      apply (yields_skip '.' _).bind
      apply (digits.yields_takeWhile ends).bind
      simp only [filled]
      exact yields_pure _ _

theorem IsExponent.yields_exponentDigits
    (exponent : IsExponent chars)
    (atEnd : Cause)
    (delimited : Delimited rest) :
    ∃ digits, (exponentDigits atEnd).Yields (chars ++ rest) digits rest := by
  cases exponent with
  | empty => exact ⟨_, Reader.yields_exponentDigits atEnd delimited⟩
  | @power letter sign chars isLetter isSign digits =>
      have goesOn : (some letter == some 'e' || some letter == some 'E') = true := by
        rcases isLetter with rfl | rfl <;> rfl
      have reads := digits.yields_takeWhile fun char isHead => (delimited char isHead).1
      obtain ⟨char, others, rfl⟩ := List.exists_cons_of_ne_nil digits.filled
      have digit := digits.digits char (List.mem_cons_self ..)
      have unsigned : (some char == some '+' || some char == some '-') = false := by
        have differs (other : Char) (noDigit : other.isDigit = false) : char ≠ other := by
          rintro rfl
          rw [digit] at noDigit
          cases noDigit
        simp [differs '+' rfl, differs '-' rfl]
      rcases isSign with rfl | signed
      · refine ⟨some (some char == some '-', char :: others), (yields_peek? _).bind ?_⟩
        simp only [List.cons_append, List.head?_cons, goesOn, if_true]
        apply (yields_skip letter _).bind
        apply (yields_peek? _).bind
        simp only [List.nil_append, List.cons_append, List.head?_cons, unsigned]
        apply Yields.of_cursor
        intro passed
        apply (yields_peek? _).bind
        simp only [List.head?_cons, digit, if_true]
        exact reads.bind (yields_pure _ _)
      · obtain ⟨mark, rfl, isMark⟩ : ∃ mark, sign = [mark] ∧
            (some mark == some '+' || some mark == some '-') = true := by
          rcases signed with rfl | rfl <;> exact ⟨_, rfl, rfl⟩
        refine ⟨some (some mark == some '-', char :: others), (yields_peek? _).bind ?_⟩
        simp only [List.cons_append, List.head?_cons, goesOn, if_true]
        apply (yields_skip letter _).bind
        apply (yields_peek? _).bind
        simp only [List.nil_append, List.cons_append, List.head?_cons, isMark, if_true]
        apply (yields_skip mark _).bind
        apply Yields.of_cursor
        intro passed
        apply (yields_peek? _).bind
        simp only [List.head?_cons, digit, if_true]
        exact reads.bind (yields_pure _ _)

/-- Behind the digits of a number no digit follows, whether or not it has an exponent. -/
theorem IsExponent.head?_append
    (exponent : IsExponent chars)
    (delimited : Delimited rest) :
    Undigited (chars ++ rest) ∧ (chars ++ rest).head? ≠ some '.' := by
  cases exponent with
  | empty =>
      exact ⟨fun char isHead => (delimited char isHead).1,
        fun isPoint => (delimited '.' isPoint).2.1 rfl⟩
  | power isLetter isSign digits =>
      rw [List.cons_append, List.head?_cons]
      constructor
      · rintro char ⟨⟩
        rcases isLetter with rfl | rfl <;> rfl
      · rcases isLetter with rfl | rfl <;> decide

theorem IsFraction.undigited_append
    (fraction : IsFraction chars)
    (ends : Undigited rest) :
    Undigited (chars ++ rest) := by
  cases fraction with
  | empty => exact ends
  | point digits =>
      rintro char ⟨⟩
      rfl

theorem IsWhole.exists_cons
    (whole : IsWhole chars) :
    ∃ char others, chars = char :: others ∧ char.isDigit = true := by
  cases whole with
  | zero => exact ⟨_, _, rfl, rfl⟩
  | digits digits noZero =>
      obtain ⟨char, others, rfl⟩ := List.exists_cons_of_ne_nil digits.filled
      exact ⟨char, others, rfl, digits.digits char (List.mem_cons_self ..)⟩

/-- A number in any form is read up to what does not belong to it. -/
theorem IsNumeral.yields_numeral
    (isNumeral : IsNumeral chars)
    (atEnd : Cause)
    (delimited : Delimited rest) :
    ∃ value, (numeral atEnd).Yields (chars ++ rest) value rest := by
  obtain ⟨isSign, isWhole, isFraction, isExponent⟩ := isNumeral
  rename_i sign whole fraction exponent
  obtain ⟨undigited, noPoint⟩ := isExponent.head?_append delimited
  obtain ⟨behind, readsFraction⟩ := isFraction.yields_fractionDigits atEnd undigited noPoint
  obtain ⟨power, readsExponent⟩ := isExponent.yields_exponentDigits atEnd delimited
  have readsWhole := isWhole.yields_wholeDigits atEnd (isFraction.undigited_append undigited)
  have parts (negative : Bool) : Yields (do
      let whole ← wholeDigits atEnd
      let fraction ← fractionDigits atEnd
      let exponent ← exponentDigits atEnd
      return (⟨negative, whole, fraction, exponent⟩ : Numeral))
      (whole ++ (fraction ++ (exponent ++ rest))) ⟨negative, whole, behind, power⟩ rest :=
    readsWhole.bind (readsFraction.bind (readsExponent.bind (yields_pure _ _)))
  simp only [List.append_assoc]
  rcases isSign with rfl | rfl
  · obtain ⟨char, others, begins, digit⟩ := isWhole.exists_cons
    have unsigned : ((whole ++ (fraction ++ (exponent ++ rest))).head? == some '-') = false := by
      rw [begins, List.cons_append, List.head?_cons, beq_eq_false_iff_ne]
      rintro ⟨⟩
      cases digit
    refine ⟨⟨false, whole, behind, power⟩, (yields_peek? _).bind ?_⟩
    simp only [List.nil_append, unsigned]
    exact parts false
  · exact ⟨⟨true, whole, behind, power⟩,
      (yields_peek? _).bind ((yields_skip '-' _).bind (parts true))⟩

/-- A number begins with its sign or with a digit. -/
theorem IsNumeral.exists_cons
    (isNumeral : IsNumeral chars) :
    ∃ char others, chars = char :: others ∧ beginsNumber char = true := by
  obtain ⟨isSign, isWhole, -, -⟩ := isNumeral
  rcases isSign with rfl | rfl
  · obtain ⟨char, others, rfl, digit⟩ := isWhole.exists_cons
    exact ⟨char, _, rfl, by simp [beginsNumber, digit]⟩
  · exact ⟨'-', _, rfl, rfl⟩

end

/-- The first character of a number is no blank and begins nothing else. -/
theorem solid_of_beginsNumber
    {char : Char}
    (begins : beginsNumber char = true) :
    isSpace char = false ∧ char ≠ 'n' ∧ char ≠ 't' ∧ char ≠ 'f' ∧ char ≠ ']' := by
  have differs (other : Char) (noNumber : beginsNumber other = false) : char ≠ other := by
    rintro rfl
    rw [begins] at noNumber
    cases noNumber
  refine ⟨?_, differs _ rfl, differs _ rfl, differs _ rfl, differs _ rfl⟩
  simp [isSpace, differs ' ' rfl, differs '\n' rfl, differs '\t' rfl, differs '\r' rfl]

end SealedDirectory.Json.Reader
