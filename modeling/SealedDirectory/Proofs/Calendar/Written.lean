import SealedDirectory.Calendar.Moment
import SealedDirectory.Proofs.Calendar.Days

/-!
# Moments are read back from their texts

The reader takes a text apart as it was put together: numbers of a fixed width with marks
between them.  Each part is read with the rest of the text left open, so the parts compose.
What is written as the sixtieth second of a minute is read as the second before it with a
second more in its fraction.

The reader accepts more than is written.  Nothing is said here about other texts.
-/

namespace SealedDirectory.Calendar

/-! ## Digits -/

/-- The digits of a number, with or without zeros in front. -/
structure Spells
    (digits : List Char)
    (value : Nat) :
    Prop where
  plain : ∀ char ∈ digits, char.isDigit = true
  same : Moment.valueOf digits = value
  filled : digits ≠ []

theorem valueOf_zeros
    (zeros : Nat)
    (digits : List Char) :
    Moment.valueOf (List.replicate zeros '0' ++ digits) = Moment.valueOf digits := by
  induction zeros with
  | zero => rfl
  | succ zeros ih => exact ih

theorem spells_toDigits
    (value : Nat) :
    Spells (Nat.toDigits 10 value) value where
  plain := fun _ member => Nat.isDigit_of_mem_toDigits (by decide) (by decide) member
  same := by
    have read := Nat.ofDigitChars_ten_toDigits (n := value)
    rw [Nat.ofDigitChars_eq_foldl] at read
    simpa [Moment.valueOf, Nat.mul_comm] using read
  filled := by simp [Nat.toDigits_ne_nil]

theorem spells_padded
    (width value : Nat) :
    Spells (padded width value).toList value := by
  have digits := spells_toDigits value
  rw [padded, String.toList_ofList]
  refine ⟨?_, (valueOf_zeros _ _).trans digits.same, by simp [digits.filled]⟩
  intro char member
  rcases List.mem_append.mp member with zero | digit
  · rw [List.eq_of_mem_replicate zero]
    rfl
  · exact digits.plain char digit

/-- A number that fits into a width is written with exactly so many digits. -/
theorem length_padded
    (width value : Nat)
    (wide : 0 < width)
    (small : value < 10 ^ width) :
    (padded width value).toList.length = width := by
  have short := (Nat.length_toDigits_le_iff (by decide) wide).mpr small
  rw [padded, String.toList_ofList, List.length_append, List.length_replicate]
  omega

theorem isBlank_of_isDigit
    {char : Char}
    (digit : char.isDigit = true) :
    Text.isBlank char = false := by
  simp only [Char.isDigit, Bool.and_eq_true, decide_eq_true_eq, ge_iff_le,
    UInt32.le_iff_toNat_le] at digit
  have code : 48 ≤ char.toNat ∧ char.toNat ≤ 57 := digit
  simp [Text.isBlank]
  omega

namespace Moment

/-! ## The parts of a text -/

variable {digits : List Char} {value : Nat}

theorem skipBlanks_solid
    {char : Char}
    (solid : Text.isBlank char = false)
    (rest : List Char) :
    skipBlanks (char :: rest) = char :: rest := by
  simp [skipBlanks, solid]

theorem skipBlanks_spelled
    (spells : Spells digits value)
    (rest : List Char) :
    skipBlanks (digits ++ rest) = digits ++ rest := by
  obtain ⟨first, others, rfl⟩ := List.exists_cons_of_ne_nil spells.filled
  exact skipBlanks_solid (isBlank_of_isDigit (spells.plain first (List.mem_cons_self ..))) _

/-- A number is read up to its last digit, or up to the first character that is not one. -/
theorem readNumber_spelled
    (spells : Spells digits value)
    (most : Nat)
    (rest : List Char)
    (fits : digits.length ≤ most)
    (ends : digits.length = most ∨ ∀ char ∈ rest.head?, char.isDigit = false)
    (small : value ≤ 9223372036854775807) :
    readNumber most (digits ++ rest) = .ok (value, rest) := by
  have stops : (rest.take (most - digits.length)).takeWhile Char.isDigit = [] := by
    rcases ends with full | ends
    · rw [full, Nat.sub_self]
      rfl
    · cases rest with
      | nil => simp
      | cons char rest =>
          cases most - digits.length with
          | zero => rfl
          | succ more => simp [ends char rfl]
  have taken : ((digits ++ rest).take most).takeWhile Char.isDigit = digits := by
    rw [List.take_append, List.take_of_length_le fits,
      List.takeWhile_append_of_pos spells.plain, stops, List.append_nil]
  obtain ⟨first, others, rfl⟩ := List.exists_cons_of_ne_nil spells.filled
  have digit : first.isDigit = true := spells.plain first (List.mem_cons_self ..)
  rw [List.cons_append] at taken ⊢
  rw [readNumber]
  simp only [digit, if_true, taken, spells.same, Nat.not_lt.mpr small, if_false]
  rw [← List.cons_append, List.drop_left]

theorem readPart_padded
    {least greatest : Nat}
    (rest : List Char)
    (atLeast : least ≤ value)
    (atMost : value ≤ greatest)
    (short : greatest < 100) :
    readPart least greatest ((padded 2 value).toList ++ rest) = .ok (value, rest) := by
  have spells := spells_padded 2 value
  have full := length_padded 2 value (by decide) (by omega)
  rw [readPart, skipBlanks_spelled spells,
    readNumber_spelled spells 2 rest full.le (.inl full) (by omega)]
  exact if_pos ⟨atLeast, atMost⟩

theorem readMark_same
    (mark : Char)
    (solid : Text.isBlank mark = false)
    (rest : List Char) :
    readMark mark (mark :: rest) = .ok rest := by
  rw [readMark, skipBlanks_solid solid]
  exact if_pos rfl

/-- A year is read up to the mark behind it, whether it has a sign or not. -/
theorem readYear_text
    {year : Int}
    (least : firstYear ≤ year)
    (greatest : year ≤ lastYear)
    (rest : List Char) :
    readYear ((yearText year).toList ++ '-' :: rest) = .ok (year, '-' :: rest) := by
  unfold firstYear at least
  unfold lastYear at greatest
  have ends : ∀ char ∈ ('-' :: rest).head?, char.isDigit = false := by
    rintro char ⟨⟩
    rfl
  rw [yearText]
  split
  · next plain =>
      have spells := spells_padded 4 year.toNat
      have full := length_padded 4 year.toNat (by decide) (by omega)
      have read := readNumber_spelled spells 4 ('-' :: rest) full.le (.inl full) (by omega)
      have skipped := skipBlanks_spelled spells ('-' :: rest)
      obtain ⟨first, others, begins⟩ := List.exists_cons_of_ne_nil spells.filled
      have digit : first.isDigit = true :=
        spells.plain first (begins ▸ List.mem_cons_self ..)
      rw [readYear, skipped]
      rw [begins, List.cons_append] at read ⊢
      dsimp only
      split
      · next same => cases same; cases digit
      · next same => cases same; cases digit
      · rw [read]
        simp [bind, Except.bind, Int.toNat_of_nonneg plain.1]
  · have spells := spells_padded 4 year.natAbs
    have read := readNumber_spelled spells
      ((padded 4 year.natAbs).toList ++ '-' :: rest).length ('-' :: rest) (by simp) (.inr ends)
      (by omega)
    split
    · next negative =>
        have chars : ("-" ++ padded 4 year.natAbs).toList ++ '-' :: rest =
            '-' :: ((padded 4 year.natAbs).toList ++ '-' :: rest) := by simp
        have back : -(year.natAbs : Int) = year := by omega
        have small : ¬ 2147483648 < year.natAbs := by omega
        rw [chars, readYear, skipBlanks_solid rfl]
        simp only [bind, Except.bind, read, if_true, if_neg small, back]
    · next positive =>
        have chars : ("+" ++ padded 4 year.natAbs).toList ++ '-' :: rest =
            '+' :: ((padded 4 year.natAbs).toList ++ '-' :: rest) := by simp
        have back : (year.natAbs : Int) = year := by omega
        have small : ¬ 2147483647 < year.natAbs := by omega
        rw [chars, readYear, skipBlanks_solid rfl]
        simp only [bind, Except.bind, read, Bool.false_eq_true, if_false, if_neg small, back]

/-- A fraction of so many places is read in billionths, up to the mark behind it. -/
theorem readFraction_padded
    {places : Nat}
    (some : 0 < places)
    (few : places ≤ 9)
    (small : value < 10 ^ places) :
    readFraction ('.' :: ((padded places value).toList ++ ['Z'])) =
      .ok (value * 10 ^ (9 - places), ['Z']) := by
  have full := length_padded places value some small
  have ends : ∀ char ∈ ['Z'].head?, char.isDigit = false := by
    rintro char ⟨⟩
    rfl
  have bound : 10 ^ places ≤ 10 ^ 9 := Nat.pow_le_pow_right (by decide) few
  have read := readNumber_spelled (spells_padded places value) 9 ['Z'] (by omega)
    (.inr ends) (by omega)
  have taken : ((padded places value).toList ++ ['Z']).length - ['Z'].length = places := by
    simp only [List.length_append, full]
    omega
  simp only [readFraction, bind, Except.bind, read, taken]
  rfl

/-- The fraction is read as it was, however many places it was written with. -/
theorem readFraction_text
    {nanos : Nat}
    (small : nanos < 1000000000) :
    readFraction ((fractionText nanos).toList ++ ['Z']) = .ok (nanos, ['Z']) := by
  have point (places value : Nat) : ("." ++ padded places value).toList ++ ['Z'] =
      '.' :: ((padded places value).toList ++ ['Z']) := by simp
  rw [fractionText]
  split
  · next nothing =>
      rw [nothing]
      rfl
  · split
    · rw [point, readFraction_padded (by decide) (by decide) (by omega)]
      congr 2
      omega
    · split
      · rw [point, readFraction_padded (by decide) (by decide) (by omega)]
        congr 2
        omega
      · rw [point, readFraction_padded (by decide) (by decide) (by omega)]
        congr 2
        omega

/-! ## The whole text -/

/-- Moments that a calendar shows: their year has a text, and only a last second leaps. -/
structure Shown
    (moment : Moment) :
    Prop where
  least : firstYear ≤ (Date.ofDays (moment.seconds.fdiv dayLength)).year
  greatest : (Date.ofDays (moment.seconds.fdiv dayLength)).year ≤ lastYear
  fraction : moment.nanos < 1000000000 ∨
    moment.seconds % 60 = 59 ∧ moment.nanos < 2000000000

/-- The parts of a text in their order. -/
theorem toList_text
    (moment : Moment) :
    moment.text.toList =
      (yearText (Date.ofDays (moment.seconds.fdiv dayLength)).year).toList ++ '-' ::
        ((padded 2 (Date.ofDays (moment.seconds.fdiv dayLength)).month).toList ++ '-' ::
          ((padded 2 (Date.ofDays (moment.seconds.fdiv dayLength)).day).toList ++ 'T' ::
            ((padded 2 ((moment.seconds - moment.seconds.fdiv dayLength * dayLength).toNat /
                3600)).toList ++ ':' ::
              ((padded 2 ((moment.seconds - moment.seconds.fdiv dayLength * dayLength).toNat /
                  60 % 60)).toList ++ ':' ::
                ((padded 2 ((moment.seconds -
                    moment.seconds.fdiv dayLength * dayLength).toNat % 60 +
                      moment.nanos / 1000000000)).toList ++
                  ((fractionText (moment.nanos % 1000000000)).toList ++ ['Z'])))))) := by
  simp [text, textWith, Date.text]

/-- The day of a moment and the second of that day make up the moment. -/
theorem seconds_eq
    (moment : Moment) :
    moment.seconds = moment.seconds.fdiv dayLength * dayLength +
        (moment.seconds - moment.seconds.fdiv dayLength * dayLength).toNat ∧
      (moment.seconds - moment.seconds.fdiv dayLength * dayLength).toNat < 86400 := by
  rw [Int.fdiv_eq_ediv_of_nonneg _ (by decide)]
  unfold dayLength
  omega

/-- The parts of a second of a day that are shown, with the sixtieth second for a leap. -/
theorem second_parts
    {seconds : Int}
    {second nanos : Nat}
    (isSecond : seconds % 60 = second % 60)
    (fraction : nanos < 1000000000 ∨ seconds % 60 = 59 ∧ nanos < 2000000000) :
    second % 60 + nanos / 1000000000 ≤ 60 ∧
      (if second % 60 + nanos / 1000000000 = 60 then 59
        else second % 60 + nanos / 1000000000) = second % 60 ∧
      (nanos % 1000000000 +
        if second % 60 + nanos / 1000000000 = 60 then 1000000000 else 0) = nanos := by
  refine ⟨by omega, ?_, ?_⟩
  · split <;> omega
  · split <;> omega

/-- A moment that a calendar shows is read back from its text. -/
theorem parse_text
    {moment : Moment}
    (shown : moment.Shown) :
    parse moment.text = .ok moment := by
  obtain ⟨least, greatest, fraction⟩ := shown
  obtain ⟨whole, inDay⟩ := moment.seconds_eq
  have chars := moment.toList_text
  obtain ⟨days, isDays⟩ : ∃ days, days = moment.seconds.fdiv dayLength := ⟨_, rfl⟩
  rw [← isDays] at least greatest whole inDay chars
  obtain ⟨second, isSecond⟩ : ∃ second, second = (moment.seconds - days * dayLength).toNat :=
    ⟨_, rfl⟩
  rw [← isSecond] at whole inDay chars
  have inMinute : moment.seconds % 60 = second % 60 := by
    unfold dayLength at whole
    omega
  obtain ⟨atMost, last, nanos⟩ := second_parts inMinute fraction
  have valid := Date.isValid_ofDays least greatest
  have isDate := Date.toDays_ofDays days
  obtain ⟨date, sameDate⟩ : ∃ date, date = Date.ofDays days := ⟨_, rfl⟩
  rw [← sameDate] at least greatest valid isDate chars
  obtain ⟨⟨⟨⟨-, january⟩, december⟩, first⟩, short⟩ := by
    simpa only [Date.isValid, Bool.and_eq_true, decide_eq_true_eq] using valid
  have inMonth : date.day ≤ 31 := short.trans (monthLength_le _ _)
  have offset : readOffset (skipBlanks ['Z']) = .ok (0, []) := rfl
  have back : date.toDays * dayLength +
      ((second / 3600 * 3600 + second / 60 % 60 * 60 + second % 60 : Nat) : Int) - 0 =
        moment.seconds := by
    rw [isDate]
    unfold dayLength at whole ⊢
    omega
  rw [parse, chars]
  simp only [bind, Except.bind, pure, Except.pure, readYear_text least greatest,
    readMark_same '-' rfl, readMark_same ':' rfl,
    readPart_padded _ january december (by decide),
    readPart_padded _ first inMonth (by decide), true_or, or_true, if_true,
    readPart_padded _ (Nat.zero_le (second / 3600)) (show _ ≤ 23 by omega) (by decide),
    readPart_padded _ (Nat.zero_le (second / 60 % 60)) (show _ ≤ 59 by omega) (by decide),
    readPart_padded _ (Nat.zero_le _) atMost (by decide),
    readFraction_text (Nat.mod_lt moment.nanos (by decide : 1000000000 > 0)), offset, last, nanos,
    back, ← isDays, ← sameDate, valid]
  rfl

end Moment

end SealedDirectory.Calendar
