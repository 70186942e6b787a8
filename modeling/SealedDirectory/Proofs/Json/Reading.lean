import SealedDirectory.Json.Reader
import SealedDirectory.Json.Printer

/-!
# Reading what was printed

A reader that is put before the characters of a value, with something behind them, gives
the value and stops before what is behind.  This is said for the parts of a document:
digits, whole numbers, texts, and the tokens between them.
-/

namespace SealedDirectory.Json.Reader

/-- Before some characters a reader gives a value and stops before the rest. -/
def Yields
    {α : Type}
    (reader : Reader α)
    (chars : List Char)
    (value : α)
    (rest : List Char) :
    Prop :=
  ∀ passed, ∃ after, reader.run ⟨chars, passed⟩ = (.ok value, ⟨rest, after⟩)

variable {α β : Type} {chars middle rest : List Char}

/-! ## Sequences -/

theorem yields_pure
    (value : α)
    (chars : List Char) :
    Yields (pure value) chars value chars :=
  fun passed => ⟨passed, rfl⟩

theorem Yields.bind
    {reader : Reader α}
    {next : α → Reader β}
    {first : α}
    {value : β}
    (begins : reader.Yields chars first middle)
    (ends : (next first).Yields middle value rest) :
    (reader >>= next).Yields chars value rest := by
  intro passed
  rcases begins passed with ⟨between, ran⟩
  rcases ends between with ⟨after, ranNext⟩
  refine ⟨after, ?_⟩
  have unfolded :
      (reader >>= next).run ⟨chars, passed⟩ =
        ExceptT.bindCont next (reader.run ⟨chars, passed⟩).1
          (reader.run ⟨chars, passed⟩).2 := rfl
  rw [unfolded, ran]
  exact ranNext

/-! ## Single characters -/

theorem yields_peek? (chars : List Char) :
    peek?.Yields chars chars.head? chars :=
  fun passed => ⟨passed, rfl⟩

theorem yields_skip (char : Char) (rest : List Char) :
    skip.Yields (char :: rest) () rest :=
  fun passed => ⟨passed + char.utf8Size, rfl⟩

theorem yields_next? (char : Char) (rest : List Char) :
    next?.Yields (char :: rest) (some char) rest :=
  (yields_peek? _).bind ((yields_skip char rest).bind (yields_pure _ _))

theorem yields_takeWhile
    {test : Char → Bool}
    (chars : List Char)
    (tested : ∀ char ∈ chars, test char = true)
    (ends : ∀ char ∈ rest.head?, test char = false) :
    (takeWhile test).Yields (chars ++ rest) chars rest := by
  have stops : rest.takeWhile test = [] ∧ rest.dropWhile test = rest := by
    cases rest with
    | nil => exact ⟨rfl, rfl⟩
    | cons char rest => simp [ends char rfl]
  have taken : (chars ++ rest).takeWhile test = chars := by
    rw [List.takeWhile_append_of_pos tested, stops.1, List.append_nil]
  have dropped : (chars ++ rest).dropWhile test = rest := by
    rw [List.dropWhile_append_of_pos tested, stops.2]
  intro passed
  refine ⟨chars.foldl (fun passed char => passed + char.utf8Size) passed, ?_⟩
  have ran :
      (takeWhile test).run ⟨chars ++ rest, passed⟩ =
        (.ok ((chars ++ rest).takeWhile test),
          ⟨(chars ++ rest).dropWhile test,
            ((chars ++ rest).takeWhile test).foldl
              (fun passed char => passed + char.utf8Size) passed⟩) := rfl
  rw [ran, taken, dropped]

/-- A token that is no blank is seen at once. -/
theorem yields_peekToken
    {char : Char}
    (atEnd : Cause)
    (solid : isSpace char = false) :
    (peekToken atEnd).Yields (char :: rest) char (char :: rest) := by
  have blanks : (takeWhile isSpace).Yields (char :: rest) [] (char :: rest) :=
    yields_takeWhile [] (by simp) (by simpa using solid)
  have looks : peekToken?.Yields (char :: rest) (some char) (char :: rest) :=
    blanks.bind (yields_peek? _)
  exact looks.bind (yields_pure _ _)

theorem yields_colon (rest : List Char) :
    colon.Yields (':' :: rest) () rest :=
  (yields_peekToken _ rfl).bind (yields_skip _ _)

/-! ## Texts -/

/-- What is read may depend on the cursor, but not on its count of bytes. -/
theorem Yields.of_cursor
    {next : Cursor → Reader α}
    {value : α}
    (ends : ∀ passed, (next ⟨chars, passed⟩).Yields chars value rest) :
    Yields (get >>= next) chars value rest :=
  fun passed => ends passed passed

theorem yields_escape
    {letter char : Char}
    (short : shortEscape? letter = some char) :
    escape.Yields (letter :: rest) char rest := by
  apply Yields.of_cursor
  intro passed
  apply (yields_next? letter rest).bind
  simp only [short]
  exact yields_pure char rest

/-- A control character is read back from its number. -/
theorem yields_numberedChar
    {char : Char}
    (control : char.toNat < 32) :
    numberedChar.Yields
      (['0', '0', Bytes.hexDigit (char.toNat / 16), Bytes.hexDigit (char.toNat % 16)] ++ rest)
      char rest := by
  have digits : ∀ number < 32,
      let written :=
        ['0', '0', Bytes.hexDigit (number / 16), Bytes.hexDigit (number % 16)]
      size written = 4 ∧ fourDigits? written = some number := by
    decide
  rcases digits char.toNat control with ⟨sized, valued⟩
  have reads : hexEscape.Yields
      (['0', '0', Bytes.hexDigit (char.toNat / 16), Bytes.hexDigit (char.toNat % 16)] ++ rest)
      char.toNat rest := by
    apply Yields.of_cursor
    intro passed
    have front (first second third fourth : Char) :
        ([first, second, third, fourth] ++ rest).take 4 = [first, second, third, fourth] :=
      rfl
    simp only [front, sized, valued]
    exact fun _ => ⟨passed + 4, rfl⟩
  apply reads.bind
  rw [if_neg (by omega), if_neg (by omega), Char.ofNat_toNat]
  exact yields_pure char rest

theorem yields_numbered
    {char : Char}
    (control : char.toNat < 32) :
    escape.Yields
      (['u', '0', '0', Bytes.hexDigit (char.toNat / 16), Bytes.hexDigit (char.toNat % 16)] ++
        rest)
      char rest := by
  apply Yields.of_cursor
  intro passed
  exact (yields_next? 'u' _).bind (yields_numberedChar control)

section

variable
  {fuel : Nat}
  {char : Char}
  {text written : List Char}

theorem yields_quotedChars_escape
    (tail : List Char)
    (reads : escape.Yields (tail ++ written) char written)
    (others : (quotedChars fuel).Yields written text rest) :
    (quotedChars (fuel + 1)).Yields ('\\' :: tail ++ written) (char :: text) rest :=
  (yields_next? '\\' _).bind (reads.bind (others.bind (yields_pure _ _)))

/-- Every character is read back from what is written for it. -/
theorem yields_quotedChars_cons
    (others : (quotedChars fuel).Yields written text rest) :
    (quotedChars (fuel + 1)).Yields (escaped char ++ written) (char :: text) rest := by
  have numbered (number : Nat) (isNumber : char.toNat = number) :
      char = Char.ofNat number := by
    rw [← isNumber, Char.ofNat_toNat]
  rw [escaped]
  split
  · next quote =>
      subst quote
      exact yields_quotedChars_escape ['"'] (yields_escape rfl) others
  · next noQuote =>
      split
      · next slash =>
          subst slash
          exact yields_quotedChars_escape ['\\'] (yields_escape rfl) others
      · next noSlash =>
          split
          · next plain =>
              apply (yields_next? char _).bind
              simp only [noQuote, noSlash, if_false, Nat.not_lt.mpr plain]
              exact others.bind (yields_pure _ _)
          · next control =>
              split
              · next isNumber =>
                  rw [numbered 8 isNumber]
                  exact yields_quotedChars_escape ['b'] (yields_escape rfl) others
              split
              · next isNumber =>
                  rw [numbered 9 isNumber]
                  exact yields_quotedChars_escape ['t'] (yields_escape rfl) others
              split
              · next isNumber =>
                  rw [numbered 10 isNumber]
                  exact yields_quotedChars_escape ['n'] (yields_escape rfl) others
              split
              · next isNumber =>
                  rw [numbered 12 isNumber]
                  exact yields_quotedChars_escape ['f'] (yields_escape rfl) others
              split
              · next isNumber =>
                  rw [numbered 13 isNumber]
                  exact yields_quotedChars_escape ['r'] (yields_escape rfl) others
              · have small : char.toNat < 32 := Nat.lt_of_not_le control
                exact yields_quotedChars_escape
                  ['u', '0', '0', _, _] (yields_numbered small) others

end

/-- A text is read back up to its closing quote. -/
theorem yields_quotedChars
    {fuel : Nat}
    (text rest : List Char)
    (enough : text.length < fuel) :
    (quotedChars fuel).Yields (text.flatMap escaped ++ '"' :: rest) text rest := by
  induction text generalizing fuel with
  | nil =>
      rcases Nat.exists_eq_succ_of_ne_zero (Nat.ne_of_gt enough) with ⟨fuel, rfl⟩
      exact (yields_next? '"' rest).bind (yields_pure _ _)
  | cons char text ih =>
      obtain ⟨fuel, rfl⟩ := Nat.exists_eq_succ_of_ne_zero (Nat.ne_of_gt (Nat.zero_lt_of_lt enough))
      rw [List.flatMap_cons, List.append_assoc]
      exact yields_quotedChars_cons (ih (Nat.lt_of_succ_lt_succ enough))

theorem length_le_escaped (text : List Char) :
    text.length ≤ (text.flatMap escaped).length := by
  induction text with
  | nil => simp
  | cons char text ih =>
      have some : 1 ≤ (escaped char).length := by
        simp only [escaped]
        repeat' split
        all_goals simp
      simp only [List.length_cons, List.flatMap_cons, List.length_append]
      omega

theorem textChars_append
    (text : String)
    (rest : List Char) :
    textChars text ++ rest = '"' :: (text.toList.flatMap escaped ++ '"' :: rest) := by
  simp [textChars]

theorem yields_quoted
    (text : String)
    (rest : List Char) :
    quoted.Yields (text.toList.flatMap escaped ++ '"' :: rest) text rest := by
  apply Yields.of_cursor
  intro passed
  have shorter := length_le_escaped text.toList
  apply (yields_quotedChars text.toList rest _).bind
  · rw [String.ofList_toList]
    exact yields_pure _ _
  · simp only [List.length_append]
    omega

theorem yields_name
    (text : String)
    (rest : List Char) :
    name.Yields (textChars text ++ rest) text rest := by
  rw [textChars_append]
  exact (yields_skip _ _).bind (yields_quoted text rest)

/-! ## Numbers -/

/-- What follows a number does not belong to it. -/
def Delimited (rest : List Char) : Prop :=
  ∀ char ∈ rest.head?, char.isDigit = false ∧ char ≠ '.' ∧ char ≠ 'e' ∧ char ≠ 'E'

theorem naturalChars_isDigit (number : Nat) :
    ∀ char ∈ naturalChars number, char.isDigit = true := by
  intro char member
  exact Nat.isDigit_of_mem_toDigits (by decide) (by decide) member

/-- A number other than zero does not begin with the digit zero. -/
theorem naturalChars_head
    {number : Nat}
    (positive : 0 < number) :
    ∃ char rest, naturalChars number = char :: rest ∧ char ≠ '0' := by
  induction number using Nat.base_induction 10 (by decide) with
  | single digit small =>
      have noZero : ∀ digit < 10, 0 < digit → digit.digitChar ≠ '0' := by decide
      refine ⟨digit.digitChar, [], ?_, noZero digit small positive⟩
      rw [naturalChars, Nat.toDigits_of_lt_base small]
  | digit whole digit small large ih =>
      rcases ih large with ⟨char, rest, begins, noZero⟩
      rw [naturalChars] at begins
      refine ⟨char, rest ++ Nat.toDigits 10 digit, ?_, noZero⟩
      rw [naturalChars, ← Nat.toDigits_append_toDigits (by decide) large small, begins,
        List.cons_append]

theorem naturalOfDigits_naturalChars (number : Nat) :
    naturalOfDigits (naturalChars number) = number := by
  have same := Nat.ofDigitChars_ten_toDigits (n := number)
  rw [Nat.ofDigitChars_eq_foldl] at same
  simpa [naturalOfDigits, naturalChars, digitValue, Nat.mul_comm] using same

theorem yields_wholeDigits
    (number : Nat)
    (atEnd : Cause)
    (delimited : Delimited rest) :
    (wholeDigits atEnd).Yields (naturalChars number ++ rest) (naturalChars number) rest := by
  have ends : ∀ char ∈ rest.head?, char.isDigit = false :=
    fun char isHead => (delimited char isHead).1
  apply Yields.of_cursor
  intro passed
  rcases Nat.eq_zero_or_pos number with rfl | positive
  · apply (yields_peek? _).bind
    apply (yields_skip '0' rest).bind
    apply (yields_peek? rest).bind
    cases isHead : rest.head? with
    | none => exact yields_pure _ _
    | some char =>
        simp only [ends char isHead]
        exact yields_pure _ _
  · rcases naturalChars_head positive with ⟨char, others, begins, noZero⟩
    have digit : char.isDigit = true := by
      apply naturalChars_isDigit number
      rw [begins]
      exact List.mem_cons_self ..
    have reads := yields_takeWhile _ (naturalChars_isDigit number) ends
    apply (yields_peek? _).bind
    rw [begins] at reads ⊢
    simp only [List.cons_append, List.head?_cons, noZero, digit, if_true, if_false]
    exact reads

theorem yields_fractionDigits
    (atEnd : Cause)
    (delimited : Delimited rest) :
    (fractionDigits atEnd).Yields rest none rest := by
  apply (yields_peek? rest).bind
  have noPoint : (rest.head? == some '.') = false := by
    rw [beq_eq_false_iff_ne]
    intro isHead
    exact (delimited '.' isHead).2.1 rfl
  simp only [noPoint]
  exact yields_pure _ _

theorem yields_exponentDigits
    (atEnd : Cause)
    (delimited : Delimited rest) :
    (exponentDigits atEnd).Yields rest none rest := by
  apply (yields_peek? rest).bind
  have noLetter : (rest.head? == some 'e' || rest.head? == some 'E') = false := by
    rw [Bool.or_eq_false_iff, beq_eq_false_iff_ne, beq_eq_false_iff_ne]
    constructor
    · intro isHead
      exact (delimited 'e' isHead).2.2.1 rfl
    · intro isHead
      exact (delimited 'E' isHead).2.2.2 rfl
  simp only [noLetter]
  exact yields_pure _ _

/-- The digits of a number, with or without a sign, are read as they are written. -/
theorem yields_numeral
    (negative : Bool)
    (number : Nat)
    (atEnd : Cause)
    (delimited : Delimited rest) :
    (numeral atEnd).Yields
      ((if negative then ['-'] else []) ++ naturalChars number ++ rest)
      ⟨negative, naturalChars number, none, none⟩ rest := by
  have parts (sign : Bool) : Yields (do
      let whole ← wholeDigits atEnd
      let fraction ← fractionDigits atEnd
      let exponent ← exponentDigits atEnd
      return (⟨sign, whole, fraction, exponent⟩ : Numeral))
      (naturalChars number ++ rest) ⟨sign, naturalChars number, none, none⟩ rest :=
    (yields_wholeDigits number atEnd delimited).bind
      ((yields_fractionDigits atEnd delimited).bind
        ((yields_exponentDigits atEnd delimited).bind (yields_pure _ _)))
  apply (yields_peek? _).bind
  cases negative with
  | true => exact (yields_skip '-' _).bind (parts true)
  | false =>
      have noSign : ((naturalChars number ++ rest).head? == some '-') = false := by
        rw [beq_eq_false_iff_ne]
        intro isHead
        have written : naturalChars number ≠ [] := Nat.toDigits_ne_nil
        rcases List.exists_cons_of_ne_nil written with ⟨char, others, begins⟩
        rw [begins, List.cons_append, List.head?_cons, Option.some.injEq] at isHead
        have digit : char.isDigit = true := by
          apply naturalChars_isDigit number
          rw [begins]
          exact List.mem_cons_self ..
        rw [isHead] at digit
        cases digit
      simp only [Bool.false_eq_true, if_false, List.nil_append, noSign]
      exact parts false

/-- The whole numbers that are read back as such. -/
def InRange (value : Int) : Prop :=
  -9223372036854775808 ≤ value ∧ value ≤ 18446744073709551615

theorem yields_number
    {value : Int}
    (inRange : InRange value)
    (delimited : Delimited rest) :
    number.Yields (integerChars value ++ rest) (.integer value) rest := by
  rcases inRange with ⟨atLeast, atMost⟩
  cases value with
  | ofNat natural =>
      have small : natural ≤ significandLimit := by
        rw [Int.ofNat_eq_natCast] at atMost
        rw [significandLimit]
        omega
      apply (yields_numeral false natural .endOfValue delimited).bind
      simp only [Option.isNone_none, Bool.and_self, if_true, Bool.false_eq_true, if_false,
        naturalOfDigits_naturalChars, small]
      exact yields_pure _ _
  | negSucc below =>
      have small : 0 < below + 1 ∧ below + 1 ≤ 9223372036854775808 := by omega
      apply (yields_numeral true (below + 1) .endOfValue delimited).bind
      simp only [Option.isNone_none, Bool.and_self, if_true, naturalOfDigits_naturalChars,
        small, and_self]
      exact yields_pure _ _

end SealedDirectory.Json.Reader
