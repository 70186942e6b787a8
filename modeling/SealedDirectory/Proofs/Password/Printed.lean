import SealedDirectory.Password.Encoded
import SealedDirectory.Proofs.Bytes.Unpadded
import SealedDirectory.Proofs.Json.Reading
import SealedDirectory.Proofs.Text.Pieces

/-!
# Encoded passwords are read back

The reader of encoded passwords cuts a text at its marks.  Names and values contain none of
the marks, so the pieces are those that were put together, and each is read as what it was
written for.  An encoded password with all its fields is read back from its text.

Nothing is said here about encoded passwords from which fields are missing; of these some
are written in a way that is read differently.
-/

namespace SealedDirectory.Password.Encoded

/-! ## Names and values -/

/-- What a name is made of. -/
structure IsName (chars : List Char) : Prop where
  filled : chars ≠ []
  short : chars.length ≤ 32
  proper : ∀ char ∈ chars, isNameChar char = true

/-- What a value is made of. -/
structure IsValue (chars : List Char) : Prop where
  short : chars.length ≤ 64
  proper : ∀ char ∈ chars, isValueChar char = true

theorem isValueChar_of_isDigit
    {char : Char}
    (digit : char.isDigit = true) :
    isValueChar char = true := by
  simp [isValueChar, Char.isAlphanum, digit]

theorem isValueChar_of_isNameChar
    {char : Char}
    (proper : isNameChar char = true) :
    isValueChar char = true := by
  rw [isNameChar, Bool.or_eq_true, Bool.or_eq_true, Bool.and_eq_true, decide_eq_true_eq,
    decide_eq_true_eq] at proper
  rcases proper with (letter | digit) | hyphen
  · have lower : char.isLower = true :=
      Bool.and_eq_true_iff.mpr ⟨decide_eq_true letter.1, decide_eq_true letter.2⟩
    have alphabetic : (char.isUpper || char.isLower) = true := Bool.or_eq_true_iff.mpr (.inr lower)
    have isAlpha : char.isAlpha = true := alphabetic
    simp [isValueChar, Char.isAlphanum, isAlpha]
  · exact isValueChar_of_isDigit digit
  · simp [isValueChar, hyphen]

theorem toNat_lt_of_isValueChar
    {char : Char}
    (proper : isValueChar char = true) :
    char.toNat < 128 := by
  simp only [isValueChar, Bool.or_eq_true, beq_iff_eq] at proper
  rcases proper with (((alphanumeric | rfl) | rfl) | rfl) | rfl
  · have ranges : ((char.isUpper || char.isLower) || char.isDigit) = true := alphanumeric
    have upper (is : char.isUpper = true) : char.val.toNat ≤ 90 :=
      UInt32.le_iff_toNat_le.mp (show char.val ≥ 'A'.val ∧ char.val ≤ 'Z'.val from
        of_decide_eq_true is).2
    have lower (is : char.isLower = true) : char.val.toNat ≤ 122 :=
      UInt32.le_iff_toNat_le.mp (of_decide_eq_true (Bool.and_eq_true_iff.mp
        (show (decide (char.val ≥ 'a'.val) && decide (char.val ≤ 'z'.val)) = true from is)).2)
    have digit (is : char.isDigit = true) : char.val.toNat ≤ 57 :=
      UInt32.le_iff_toNat_le.mp (of_decide_eq_true (Bool.and_eq_true_iff.mp
        (show (decide (char.val ≥ '0'.val) && decide (char.val ≤ '9'.val)) = true from is)).2)
    show char.val.toNat < 128
    rw [Bool.or_eq_true, Bool.or_eq_true] at ranges
    rcases ranges with (is | is) | is
    · exact Nat.lt_of_le_of_lt (upper is) (by decide)
    · exact Nat.lt_of_le_of_lt (lower is) (by decide)
    · exact Nat.lt_of_le_of_lt (digit is) (by decide)
  all_goals decide

/-- If every character is one byte, then the size is the number of characters. -/
theorem size_eq_length
    {chars : List Char}
    (basic : ∀ char ∈ chars, char.toNat < 128) :
    size chars = chars.length := by
  have added (total : Nat) :
      chars.foldl (fun total char => total + char.utf8Size) total = total + chars.length := by
    induction chars generalizing total with
    | nil => rfl
    | cons char chars ih =>
        have single : char.utf8Size = 1 := by
          have code : char.val ≤ 127 := Nat.le_of_lt_succ (basic char (List.mem_cons_self ..))
          rw [Char.utf8Size]
          exact if_pos code
        rw [List.foldl_cons, single, ih fun other member =>
          basic other (List.mem_cons_of_mem _ member), List.length_cons]
        omega
  rw [size, added, Nat.zero_add]

theorem IsValue.size_eq
    {chars : List Char}
    (value : IsValue chars) :
    size chars = chars.length :=
  size_eq_length fun char member => toNat_lt_of_isValueChar (value.proper char member)

theorem IsName.size_eq
    {chars : List Char}
    (name : IsName chars) :
    size chars = chars.length :=
  size_eq_length fun char member =>
    toNat_lt_of_isValueChar (isValueChar_of_isNameChar (name.proper char member))

theorem IsName.read
    {chars : List Char}
    (name : IsName chars) :
    readName chars = .ok chars := by
  have fits : ¬ 32 < size chars := by
    rw [name.size_eq]
    exact Nat.not_lt.mpr name.short
  have proper : chars.all isNameChar = true := List.all_eq_true.mpr name.proper
  simp [readName, name.filled, fits, proper]

theorem IsValue.read
    {chars : List Char}
    (value : IsValue chars) :
    readValue chars = .ok chars := by
  have fits : ¬ 64 < size chars := by
    rw [value.size_eq]
    exact Nat.not_lt.mpr value.short
  have proper : chars.find? (fun char => !isValueChar char) = none := by
    simpa using value.proper
  rw [readValue, if_neg fits, proper]

/-- No name contains a mark. -/
theorem IsName.notMem
    {chars : List Char}
    {mark : Char}
    (name : IsName chars)
    (foreign : isNameChar mark = false) :
    mark ∉ chars := by
  intro member
  rw [name.proper mark member] at foreign
  cases foreign

theorem IsValue.notMem
    {chars : List Char}
    {mark : Char}
    (value : IsValue chars)
    (foreign : isValueChar mark = false) :
    mark ∉ chars := by
  intro member
  rw [value.proper mark member] at foreign
  cases foreign

/-! ## Decimals -/

theorem isDigit_of_mem_decimal
    {number : Nat}
    {char : Char}
    (member : char ∈ decimal number) :
    char.isDigit = true :=
  Nat.isDigit_of_mem_toDigits (by decide) (by decide) member

theorem length_decimal_le
    {number : Nat}
    (small : number < UInt32.size) :
    (decimal number).length ≤ 10 :=
  (Nat.length_toDigits_le_iff (by decide) (by decide)).mpr (Nat.lt_trans small (by decide))

theorem isValue_decimal
    {number : Nat}
    (small : number < UInt32.size) :
    IsValue (decimal number) where
  short := Nat.le_trans (length_decimal_le small) (by decide)
  proper := fun _ member => isValueChar_of_isDigit (isDigit_of_mem_decimal member)

theorem readDecimal_decimal
    {number : Nat}
    (small : number < UInt32.size) :
    readDecimal (decimal number) = .ok number := by
  have filled : (decimal number).isEmpty = false := by
    simp [decimal, Nat.toDigits_ne_nil]
  have digits : (decimal number).find? (fun char => !char.isDigit) = none := by
    simpa using fun _ member => isDigit_of_mem_decimal member
  have value : (decimal number).foldl (fun total digit => total * 10 + (digit.toNat - 48)) 0 =
      number := Json.Reader.naturalOfDigits_naturalChars number
  have unpadded :
      ¬ ((decimal number).head? = some '0' ∧ 1 < (decimal number).length) := by
    rintro ⟨zero, long⟩
    rcases Nat.eq_zero_or_pos number with rfl | positive
    · revert long
      decide
    · obtain ⟨char, rest, begins, noZero⟩ := Json.Reader.naturalChars_head positive
      rw [decimal, ← Json.naturalChars, begins, List.head?_cons] at zero
      exact noZero (Option.some.inj zero)
  have fits : ¬ 4294967295 < number := Nat.not_lt.mpr (Nat.le_of_lt_succ small)
  simp [readDecimal, filled, digits, value, unpadded, fits]

theorem readVersion_decimal
    {number : Nat}
    (small : number < UInt32.size)
    (rest : List (List Char)) :
    readVersion (('v' :: '=' :: decimal number) :: rest) = .ok (some number, rest) := by
  have value := isValue_decimal small
  have noComma : ',' ∉ decimal number := value.notMem (by decide)
  have isVersion : isVersion ('v' :: '=' :: decimal number) = true := by
    simp [isVersion, noComma]
  rw [readVersion, isVersion, if_pos rfl]
  show (readValue (decimal number)).mapError _ >>= _ = _
  rw [value.read]
  show (readDecimal (decimal number)).mapError _ >>= _ = _
  rw [readDecimal_decimal small]
  rfl

/-! ## Parameters -/

theorem readParameter_parameterChars
    {entry : List Char × List Char}
    (name : IsName entry.1)
    (value : IsValue entry.2) :
    readParameter (parameterChars entry) = .ok entry := by
  have pieces : (parameterChars entry).splitOn '=' = [entry.1, entry.2] := by
    have free : ∀ piece ∈ [entry.1, entry.2], '=' ∉ piece := by
      simpa using ⟨name.notMem (by decide), value.notMem (by decide)⟩
    have joined : parameterChars entry = ['='].intercalate [entry.1, entry.2] := by
      simp [parameterChars, List.intercalate]
    rw [joined, List.splitOn_intercalate _ free (by simp)]
  rw [readParameter, pieces]
  simp [name.read, value.read, bind, Except.bind, Except.mapError]

/-- What the parameters of an encoded password are made of. -/
structure AreParameters (parameters : List (List Char × List Char)) : Prop where
  filled : parameters ≠ []
  names : ∀ entry ∈ parameters, IsName entry.1
  values : ∀ entry ∈ parameters, IsValue entry.2
  short : ([','].intercalate (parameters.map parameterChars)).length ≤ 127

namespace AreParameters

variable {parameters : List (List Char × List Char)}

theorem notMem
    {mark : Char}
    {entry : List Char × List Char}
    (proper : AreParameters parameters)
    (member : entry ∈ parameters)
    (noName : isNameChar mark = false)
    (noValue : isValueChar mark = false)
    (other : mark ≠ '=') :
    mark ∉ parameterChars entry := by
  simp [parameterChars, (proper.names entry member).notMem noName,
    (proper.values entry member).notMem noValue, other]

theorem size_eq
    (proper : AreParameters parameters) :
    size ([','].intercalate (parameters.map parameterChars)) =
      ([','].intercalate (parameters.map parameterChars)).length := by
  apply size_eq_length
  intro char member
  rcases Text.mem_intercalate member with rfl | ⟨piece, isPiece, inPiece⟩
  · decide
  · obtain ⟨entry, inList, rfl⟩ := List.mem_map.mp isPiece
    rw [parameterChars, List.mem_append, List.mem_cons] at inPiece
    rcases inPiece with inName | rfl | inValue
    · exact toNat_lt_of_isValueChar
        (isValueChar_of_isNameChar ((proper.names entry inList).proper char inName))
    · decide
    · exact toNat_lt_of_isValueChar ((proper.values entry inList).proper char inValue)

theorem read
    (proper : AreParameters parameters) :
    readParameters ([','].intercalate (parameters.map parameterChars)) = .ok parameters := by
  have free : ∀ piece ∈ parameters.map parameterChars, ',' ∉ piece := by
    intro piece member
    obtain ⟨entry, inList, rfl⟩ := List.mem_map.mp member
    exact proper.notMem inList (by decide) (by decide) (by decide)
  have each : (parameters.map parameterChars).mapM readParameter = .ok parameters := by
    have names := proper.names
    have values := proper.values
    clear free proper
    induction parameters with
    | nil => rfl
    | cons entry parameters ih =>
        have first := readParameter_parameterChars (names entry (List.mem_cons_self ..))
          (values entry (List.mem_cons_self ..))
        have others := ih (fun other member => names other (List.mem_cons_of_mem _ member))
          (fun other member => values other (List.mem_cons_of_mem _ member))
        rw [List.map_cons, List.mapM_cons, first]
        simp only [others, bind, Except.bind, pure, Except.pure]
  rw [readParameters, proper.size_eq, if_neg (Nat.not_lt.mpr proper.short),
    List.splitOn_intercalate _ free (by simpa using proper.filled), each]

theorem notMem_joined
    {mark : Char}
    (proper : AreParameters parameters)
    (noName : isNameChar mark = false)
    (noValue : isValueChar mark = false)
    (other : mark ≠ '=')
    (another : mark ≠ ',') :
    mark ∉ [','].intercalate (parameters.map parameterChars) := by
  intro member
  rcases Text.mem_intercalate member with isComma | ⟨piece, isPiece, inPiece⟩
  · exact another isComma
  · obtain ⟨entry, inList, rfl⟩ := List.mem_map.mp isPiece
    exact proper.notMem inList noName noValue other inPiece

theorem mem_joined
    (proper : AreParameters parameters) :
    '=' ∈ [','].intercalate (parameters.map parameterChars) := by
  obtain ⟨entry, others, rfl⟩ := List.exists_cons_of_ne_nil proper.filled
  rw [List.map_cons, Text.intercalate_cons]
  simp [parameterChars]

/-- The field of the parameters is taken as such. -/
theorem take
    (proper : AreParameters parameters)
    (rest : List (List Char)) :
    takeParameters ([','].intercalate (parameters.map parameterChars) :: rest) =
      .ok (parameters, rest) := by
  have contains : ([','].intercalate (parameters.map parameterChars)).contains '=' = true :=
    List.contains_iff_mem.mpr proper.mem_joined
  rw [takeParameters, contains, if_pos rfl, proper.read]
  rfl

end AreParameters

/-! ## Salts and tags -/

theorem isValueChar_of_mem_plainChars
    {bytes : Bytes}
    {char : Char}
    (member : char ∈ Base64.plainChars bytes) :
    isValueChar char = true := by
  have symbols : ∀ value < 64, isValueChar (Base64.symbol value) = true := by decide
  obtain ⟨value, small, rfl⟩ := Base64.mem_plainChars member
  exact symbols value small

theorem readSalt_plainChars
    {salt : Bytes}
    (long : 2 < salt.length)
    (short : salt.length ≤ 48) :
    readSalt (Base64.plainChars salt) = .ok (Base64.plainChars salt) := by
  have value : IsValue (Base64.plainChars salt) := by
    refine ⟨?_, fun _ member => isValueChar_of_mem_plainChars member⟩
    rw [Base64.length_plainChars]
    omega
  have fits : ¬ size (Base64.plainChars salt) < 4 := by
    rw [value.size_eq, Base64.length_plainChars]
    omega
  rw [readSalt, if_neg fits, value.read]
  rfl

theorem decodedLength_size_plainChars (bytes : Bytes) :
    decodedLength (size (Base64.plainChars bytes)) = bytes.length := by
  have basic : ∀ char ∈ Base64.plainChars bytes, char.toNat < 128 :=
    fun _ member => toNat_lt_of_isValueChar (isValueChar_of_mem_plainChars member)
  rw [size_eq_length basic, decodedLength, Base64.length_plainChars]
  omega

theorem readTag_plainChars
    {tag : Bytes}
    (long : leastTag ≤ tag.length)
    (short : tag.length ≤ greatestTag) :
    readTag (Base64.plainChars tag) = .ok tag := by
  have read := Base64.decodeUnpadded?_encodeUnpadded tag
  rw [Base64.encodeUnpadded, ← Base64.plainChars] at read
  rw [readTag, decodedLength_size_plainChars, if_neg (Nat.not_lt.mpr short), read]
  exact if_neg (Nat.not_lt.mpr long)

/-! ## Whole texts -/

/-- The fields of an encoded password of which none is missing. -/
structure IsComplete (encoded : Encoded) (version : Nat) (salt tag : Bytes) : Prop where
  algorithm : IsName encoded.algorithm
  version : encoded.version = some version ∧ version < UInt32.size
  parameters : AreParameters encoded.parameters
  salt : encoded.salt = some (Base64.plainChars salt) ∧ 2 < salt.length ∧ salt.length ≤ 48
  tag : encoded.tag = some tag ∧ leastTag ≤ tag.length ∧ tag.length ≤ greatestTag

namespace IsComplete

variable {encoded : Encoded} {version : Nat} {salt tag : Bytes}

theorem fields_eq
    (complete : encoded.IsComplete version salt tag) :
    encoded.fields =
      ['v' :: '=' :: decimal version,
       [','].intercalate (encoded.parameters.map parameterChars),
       Base64.plainChars salt, Base64.plainChars tag] := by
  have filled := complete.parameters.filled
  simp [fields, complete.version.1, complete.salt.1, complete.tag.1, filled,
    Base64.toList_encodeUnpadded]

theorem notMem
    (complete : encoded.IsComplete version salt tag) :
    ∀ piece ∈ [] :: encoded.algorithm :: encoded.fields, '$' ∉ piece := by
  rw [complete.fields_eq]
  intro piece member
  simp only [List.mem_cons, List.not_mem_nil, or_false] at member
  have noSymbol (bytes : Bytes) : '$' ∉ Base64.plainChars bytes := by
    intro isSymbol
    exact absurd (isValueChar_of_mem_plainChars isSymbol) (by decide)
  rcases member with rfl | rfl | rfl | rfl | rfl | rfl
  · simp
  · exact complete.algorithm.notMem (by decide)
  · have noDigit : '$' ∉ decimal version :=
      (isValue_decimal complete.version.2).notMem (by decide)
    simp [noDigit]
  · exact complete.parameters.notMem_joined (by decide) (by decide) (by decide) (by decide)
  · exact noSymbol salt
  · exact noSymbol tag

/-- An encoded password with all its fields is read back from its text. -/
theorem parse_text
    (complete : encoded.IsComplete version salt tag) :
    parse encoded.text = .ok encoded := by
  have pieces : encoded.text.toList.splitOn '$' =
      [] :: encoded.algorithm :: encoded.fields := by
    rw [text, String.toList_ofList, ← List.nil_append (List.flatMap _ _), ← Text.intercalate_cons,
      List.splitOn_intercalate _ complete.notMem (by simp)]
  have salted := readSalt_plainChars complete.salt.2.1 complete.salt.2.2
  have tagged := readTag_plainChars complete.tag.2.1 complete.tag.2.2
  have same : encoded = ⟨encoded.algorithm, some version, encoded.parameters,
      some (Base64.plainChars salt), some tag⟩ := by
    rw [← complete.version.1, ← complete.salt.1, ← complete.tag.1]
  have version := readVersion_decimal complete.version.2
    ([','].intercalate (encoded.parameters.map parameterChars) ::
      [Base64.plainChars salt, Base64.plainChars tag])
  have parameters := complete.parameters.take [Base64.plainChars salt, Base64.plainChars tag]
  simp only [parse, pieces, complete.fields_eq, complete.algorithm.read, version, parameters,
    bind, Except.bind, List.head?_cons, List.tail_cons, Option.mapM_some, salted, tagged,
    Except.map_ok]
  exact congrArg Except.ok same.symm

end IsComplete

end SealedDirectory.Password.Encoded
