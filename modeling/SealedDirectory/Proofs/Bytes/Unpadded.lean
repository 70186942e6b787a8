import SealedDirectory.Proofs.Bytes.Written
import Mathlib.Data.List.Basic

/-!
# Written bytes without padding

Without its padding the Base64 form of a byte string consists of symbols of the alphabet
only, four for three bytes.  Their number says how much padding is missing, so the form is
read back like the padded one.
-/

namespace SealedDirectory.Base64

/-- The symbols of a byte string without the padding at the end. -/
def plainChars (bytes : Bytes) : List Char :=
  (encodeChars bytes).filter (· != '=')

theorem toList_encodeUnpadded (bytes : Bytes) :
    (encodeUnpadded bytes).toList = plainChars bytes := by
  rw [encodeUnpadded, String.toList_ofList, plainChars]

theorem symbol_ne_padding {value : Nat} (small : value < 64) :
    symbol value ≠ '=' := by
  revert value
  decide

/-! ## Groups -/

section

variable (first second third : UInt8)

theorem plainChars_one :
    plainChars [first] =
      [symbol (first.toNat / 4), symbol (first.toNat % 4 * 16)] := by
  have one := symbol_ne_padding (numbers_lt first 0 0).1
  have two : symbol (first.toNat % 4 * 16) ≠ '=' :=
    symbol_ne_padding (numbers_lt first 0 0).2.1
  simp [plainChars, encodeChars, one, two]

theorem plainChars_two :
    plainChars [first, second] =
      [symbol (first.toNat / 4), symbol (first.toNat % 4 * 16 + second.toNat / 16),
       symbol (second.toNat % 16 * 4)] := by
  have one := symbol_ne_padding (numbers_lt first second 0).1
  have two := symbol_ne_padding (numbers_lt first second 0).2.1
  have three : symbol (second.toNat % 16 * 4) ≠ '=' :=
    symbol_ne_padding (numbers_lt first second 0).2.2.1
  simp [plainChars, encodeChars, one, two, three]

theorem plainChars_cons (rest : Bytes) :
    plainChars (first :: second :: third :: rest) =
      symbol (first.toNat / 4) ::
      symbol (first.toNat % 4 * 16 + second.toNat / 16) ::
      symbol (second.toNat % 16 * 4 + third.toNat / 64) ::
      symbol (third.toNat % 64) :: plainChars rest := by
  obtain ⟨one, two, three, four⟩ := numbers_lt first second third
  simp [plainChars, encodeChars, symbol_ne_padding one, symbol_ne_padding two,
    symbol_ne_padding three, symbol_ne_padding four]

end

/-! ## What is written -/

/-- Nothing but symbols of the alphabet is written. -/
theorem mem_plainChars
    {bytes : Bytes}
    {char : Char}
    (member : char ∈ plainChars bytes) :
    ∃ value < 64, char = symbol value := by
  induction bytes using encodeChars.induct with
  | case1 => cases member
  | case2 first =>
      obtain ⟨one, two, -⟩ := numbers_lt first 0 0
      rw [plainChars_one, List.mem_cons, List.mem_singleton] at member
      rcases member with rfl | rfl
      · exact ⟨_, one, rfl⟩
      · exact ⟨_, two, rfl⟩
  | case3 first second =>
      obtain ⟨one, two, three, -⟩ := numbers_lt first second 0
      rw [plainChars_two, List.mem_cons, List.mem_cons, List.mem_singleton] at member
      rcases member with rfl | rfl | rfl
      · exact ⟨_, one, rfl⟩
      · exact ⟨_, two, rfl⟩
      · exact ⟨_, three, rfl⟩
  | case4 first second third rest ih =>
      obtain ⟨one, two, three, four⟩ := numbers_lt first second third
      rw [plainChars_cons] at member
      simp only [List.mem_cons] at member
      rcases member with rfl | rfl | rfl | rfl | later
      · exact ⟨_, one, rfl⟩
      · exact ⟨_, two, rfl⟩
      · exact ⟨_, three, rfl⟩
      · exact ⟨_, four, rfl⟩
      · exact ih later

theorem length_plainChars (bytes : Bytes) :
    (plainChars bytes).length = (4 * bytes.length + 2) / 3 := by
  induction bytes using encodeChars.induct with
  | case1 => rfl
  | case2 first => simp [plainChars_one]
  | case3 first second => simp [plainChars_two]
  | case4 first second third rest ih =>
      rw [plainChars_cons]
      simp only [List.length_cons, ih]
      omega

/-- The padded form has as much padding as completes the last group of symbols. -/
theorem encodeChars_eq_plainChars (bytes : Bytes) :
    encodeChars bytes = plainChars bytes ++
      List.replicate ((4 - (plainChars bytes).length % 4) % 4) '=' := by
  induction bytes using encodeChars.induct with
  | case1 => rfl
  | case2 first => rw [plainChars_one]; rfl
  | case3 first second => rw [plainChars_two]; rfl
  | case4 first second third rest ih =>
      have missing : (4 - ((plainChars rest).length + 4) % 4) % 4 =
          (4 - (plainChars rest).length % 4) % 4 := by
        omega
      rw [plainChars_cons]
      simp only [encodeChars, List.length_cons, List.cons_append, missing, ← ih]

/-! ## Reading -/

/-- Every symbol is one byte of the text. -/
theorem ofText_encodeUnpadded (bytes : Bytes) :
    Bytes.ofText (encodeUnpadded bytes) =
      (plainChars bytes).map fun char => UInt8.ofNat char.toNat := by
  rw [encodeUnpadded, Bytes.ofText_ofList, ← plainChars, List.map_eq_flatMap]
  apply List.flatMap_congr
  intro char member
  obtain ⟨value, small, rfl⟩ := mem_plainChars member
  rw [utf8EncodeChar_symbol small, symbolByte]

theorem padding_notMem_ofText_encodeUnpadded (bytes : Bytes) :
    padding ∉ Bytes.ofText (encodeUnpadded bytes) := by
  intro member
  rw [ofText_encodeUnpadded, List.mem_map] at member
  obtain ⟨char, isPlain, same⟩ := member
  obtain ⟨value, small, rfl⟩ := mem_plainChars isPlain
  exact symbolByte_ne_padding small same

theorem written_eq (bytes : Bytes) :
    written bytes = Bytes.ofText (encodeUnpadded bytes) ++
      List.replicate ((4 - (plainChars bytes).length % 4) % 4) padding := by
  have padded : String.utf8EncodeChar '=' = [padding] := by decide
  rw [written, encode, Bytes.ofText_ofList, encodeChars_eq_plainChars, List.flatMap_append,
    List.flatMap_replicate, padded, encodeUnpadded, Bytes.ofText_ofList, ← plainChars]
  simp

/-- A byte string is read back from its written form without padding. -/
theorem decodeUnpadded?_encodeUnpadded (bytes : Bytes) :
    decodeUnpadded? (encodeUnpadded bytes) = some bytes := by
  have length : (Bytes.ofText (encodeUnpadded bytes)).length = (plainChars bytes).length := by
    rw [ofText_encodeUnpadded, List.length_map]
  have unpadded := padding_notMem_ofText_encodeUnpadded bytes
  have read : decodeBytes (written bytes) = .ok bytes := decode_encode bytes
  rw [written_eq] at read
  simp [decodeUnpadded?, unpadded, length, read]

end SealedDirectory.Base64
