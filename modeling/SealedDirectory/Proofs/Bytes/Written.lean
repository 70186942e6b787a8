import SealedDirectory.Bytes.Base64
import SealedDirectory.Bytes.Utf8

/-!
# Written bytes are read back

A text is read back from its UTF-8 form, and a byte string from its hexadecimal and from
its Base64 form.  The last of these follows the groups of three bytes and four symbols;
the last group may be shorter and is then closed by padding.
-/

namespace SealedDirectory

namespace Bytes

theorem toText?_ofText (text : String) :
    toText? (ofText text) = some text := by
  have bytes : ByteArray.mk (ofText text).toArray = text.toByteArray := by
    rw [ofText, Array.toArray_toList]
  rw [toText?, bytes, String.fromUTF8?, dif_pos text.isValidUTF8]
  rfl

theorem ofText_ofList (chars : List Char) :
    ofText (String.ofList chars) = chars.flatMap String.utf8EncodeChar := by
  simp [ofText, List.utf8Encode]

/-! ## Hexadecimal digits -/

theorem hexValue?_hexDigit {value : Nat} (small : value < 16) :
    hexValue? (hexDigit value) = some value := by
  revert value
  decide

/-- A byte string is read back from its hexadecimal form. -/
theorem ofHex?_toHex (bytes : Bytes) :
    ofHex? (toHex bytes) = some bytes := by
  rw [ofHex?, toHex, String.toList_ofList]
  induction bytes with
  | nil => rfl
  | cons byte rest ih =>
      have below := byte.toNat_lt
      have upper : hexValue? (hexDigit (byte.toNat / 16)) = some (byte.toNat / 16) :=
        hexValue?_hexDigit (by omega)
      have lower : hexValue? (hexDigit (byte.toNat % 16)) = some (byte.toNat % 16) :=
        hexValue?_hexDigit (by omega)
      have whole : 16 * (byte.toNat / 16) + byte.toNat % 16 = byte.toNat :=
        Nat.div_add_mod byte.toNat 16
      rw [List.flatMap_cons, hexPair, List.cons_append, List.cons_append, List.nil_append,
        ofHexDigits?, upper, lower, ih]
      simp only [Option.bind_eq_bind, Option.bind_some, whole, UInt8.ofNat_toNat]
      rfl

end Bytes

theorem Utf8.decode_ofText (text : String) :
    Utf8.decode (Bytes.ofText text) = .ok text := by
  rw [Utf8.decode, Bytes.toText?_ofText]

namespace Base64

/-! ## Symbols -/

/-- The byte of the symbol of a number. -/
def symbolByte (value : Nat) : UInt8 :=
  UInt8.ofNat (symbol value).toNat

theorem utf8EncodeChar_symbol {value : Nat} (small : value < 64) :
    String.utf8EncodeChar (symbol value) = [symbolByte value] := by
  revert value
  decide

theorem valueAt_symbolByte
    {value : Nat}
    (place : Nat)
    (small : value < 64) :
    valueAt place (symbolByte value) = .ok value := by
  have read : ∀ value < 64, value? (symbolByte value) = some value := by decide
  rw [valueAt, read value small]

theorem symbolByte_ne_padding {value : Nat} (small : value < 64) :
    symbolByte value ≠ padding := by
  revert value
  decide

/-! ## Groups -/

def written (bytes : Bytes) : Bytes :=
  Bytes.ofText (encode bytes)

theorem written_nil : written [] = [] :=
  Bytes.ofText_ofList []

section

variable (first second third : UInt8)

/-- The four numbers of a group of three bytes are below sixty-four. -/
theorem numbers_lt :
    first.toNat / 4 < 64 ∧ first.toNat % 4 * 16 + second.toNat / 16 < 64 ∧
      second.toNat % 16 * 4 + third.toNat / 64 < 64 ∧ third.toNat % 64 < 64 := by
  have := first.toNat_lt
  have := second.toNat_lt
  have := third.toNat_lt
  omega

theorem written_one :
    written [first] =
      [symbolByte (first.toNat / 4), symbolByte (first.toNat % 4 * 16), padding, padding] := by
  have one : first.toNat / 4 < 64 := (numbers_lt first 0 0).1
  have two : first.toNat % 4 * 16 < 64 := (numbers_lt first 0 0).2.1
  have padded : String.utf8EncodeChar '=' = [padding] := by decide
  rw [written, encode, Bytes.ofText_ofList, encodeChars]
  simp [utf8EncodeChar_symbol one, utf8EncodeChar_symbol two, padded]

theorem written_two :
    written [first, second] =
      [symbolByte (first.toNat / 4), symbolByte (first.toNat % 4 * 16 + second.toNat / 16),
       symbolByte (second.toNat % 16 * 4), padding] := by
  rcases numbers_lt first second 0 with ⟨one, two, -⟩
  have three : second.toNat % 16 * 4 < 64 := (numbers_lt first second 0).2.2.1
  have padded : String.utf8EncodeChar '=' = [padding] := by decide
  rw [written, encode, Bytes.ofText_ofList, encodeChars]
  simp [utf8EncodeChar_symbol one, utf8EncodeChar_symbol two, utf8EncodeChar_symbol three,
    padded]

theorem written_cons (rest : Bytes) :
    written (first :: second :: third :: rest) =
      symbolByte (first.toNat / 4) ::
      symbolByte (first.toNat % 4 * 16 + second.toNat / 16) ::
      symbolByte (second.toNat % 16 * 4 + third.toNat / 64) ::
      symbolByte (third.toNat % 64) :: written rest := by
  rcases numbers_lt first second third with ⟨one, two, three, four⟩
  rw [written, encode, Bytes.ofText_ofList, encodeChars, written, encode,
    Bytes.ofText_ofList]
  simp [utf8EncodeChar_symbol one, utf8EncodeChar_symbol two, utf8EncodeChar_symbol three,
    utf8EncodeChar_symbol four]

/-- The numbers of a group give its bytes. -/
theorem group_numbers :
    group (first.toNat / 4) (first.toNat % 4 * 16 + second.toNat / 16)
      (second.toNat % 16 * 4 + third.toNat / 64) (third.toNat % 64) =
        [first, second, third] := by
  have := first.toNat_lt
  have := second.toNat_lt
  have := third.toNat_lt
  have one : first.toNat / 4 * 4 + (first.toNat % 4 * 16 + second.toNat / 16) / 16 =
      first.toNat := by omega
  have two : (first.toNat % 4 * 16 + second.toNat / 16) % 16 * 16 +
      (second.toNat % 16 * 4 + third.toNat / 64) / 4 = second.toNat := by omega
  have three : (second.toNat % 16 * 4 + third.toNat / 64) % 4 * 64 + third.toNat % 64 =
      third.toNat := by omega
  rw [group, one, two, three]
  simp only [UInt8.ofNat_toNat]

end

/-! ## Reading -/

theorem four_dvd_length_written (bytes : Bytes) :
    4 ∣ (written bytes).length := by
  induction bytes using encodeChars.induct with
  | case1 => simp [written_nil]
  | case2 first => simp [written_one]
  | case3 first second => simp [written_two]
  | case4 first second third rest ih =>
      rw [written_cons]
      simp only [List.length_cons]
      omega

theorem decodeLast_symbolByte
    {value place : Nat}
    {values : List Nat}
    {last : UInt8}
    (small : value < 64)
    (rest : Bytes) :
    decodeLast place values last 0 (symbolByte value :: rest) =
      decodeLast place (values ++ [value]) (symbolByte value) 0 rest := by
  rw [decodeLast, if_neg (symbolByte_ne_padding small)]
  simp only [ne_eq, not_true_eq_false, if_false, valueAt_symbolByte _ small]
  rfl

/-- Four bytes or fewer are the last group. -/
theorem decodeGroups_of_length_le
    {bytes : Bytes}
    (place : Nat)
    (some : bytes ≠ [])
    (short : bytes.length ≤ 4) :
    decodeGroups place bytes = decodeLast place [] 0 0 bytes := by
  rw [decodeGroups]
  · rintro first second third fourth fifth rest rfl
    simp only [List.length_cons] at short
    omega
  · exact some

theorem decodeGroups_written
    (place : Nat)
    (bytes : Bytes) :
    decodeGroups place (written bytes) = .ok bytes := by
  induction bytes using encodeChars.induct generalizing place with
  | case1 => rw [written_nil, decodeGroups]
  | case2 first =>
      have one : first.toNat / 4 < 64 := (numbers_lt first 0 0).1
      have two : first.toNat % 4 * 16 < 64 := (numbers_lt first 0 0).2.1
      have whole : group (first.toNat / 4) (first.toNat % 4 * 16) 0 0 = [first, 0, 0] :=
        group_numbers first 0 0
      rw [written_one, decodeGroups_of_length_le _ (by simp) (by simp),
        decodeLast_symbolByte one, decodeLast_symbolByte two]
      simp [decodeLast, closing, whole]
  | case3 first second =>
      rcases numbers_lt first second 0 with ⟨one, two, -⟩
      have three : second.toNat % 16 * 4 < 64 := (numbers_lt first second 0).2.2.1
      have whole : group (first.toNat / 4) (first.toNat % 4 * 16 + second.toNat / 16)
          (second.toNat % 16 * 4) 0 = [first, second, 0] :=
        group_numbers first second 0
      rw [written_two, decodeGroups_of_length_le _ (by simp) (by simp),
        decodeLast_symbolByte one, decodeLast_symbolByte two, decodeLast_symbolByte three]
      simp [decodeLast, closing, whole]
  | case4 first second third rest ih =>
      rcases numbers_lt first second third with ⟨one, two, three, four⟩
      rw [written_cons]
      cases others : written rest with
      | nil =>
          have read := ih place
          rw [others, decodeGroups] at read
          cases read
          rw [decodeGroups_of_length_le _ (by simp) (by simp), decodeLast_symbolByte one,
            decodeLast_symbolByte two, decodeLast_symbolByte three,
            decodeLast_symbolByte four]
          simp [decodeLast, closing, group_numbers]
      | cons fifth more =>
          have read := ih (place + 4)
          rw [others] at read
          rw [decodeGroups, valueAt_symbolByte _ one, valueAt_symbolByte _ two,
            valueAt_symbolByte _ three, valueAt_symbolByte _ four]
          simp [read, group_numbers, bind, Except.bind, pure, Except.pure]

/-- A byte string is read back from its written form. -/
theorem decode_encode (bytes : Bytes) :
    decode (encode bytes) = .ok bytes := by
  have whole : (written bytes).length % 4 ≠ 1 := by
    have divides := four_dvd_length_written bytes
    omega
  rw [decode, ← written, decodeBytes, strayLast, if_neg whole]
  exact decodeGroups_written 0 bytes

end Base64

end SealedDirectory
