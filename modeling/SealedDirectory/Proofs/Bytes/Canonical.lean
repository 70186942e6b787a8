import SealedDirectory.Proofs.Bytes.Written
import Mathlib.Logic.Basic
import Mathlib.Tactic.SplitIfs

/-!
# Only written bytes are read

The other half of reading back: a text that is read as bytes is the written form of these
bytes, so nothing but the written form is accepted.  A group of four symbols determines its
three bytes and is determined by them; in a closing group the padding and the unused bits
leave no choice either.
-/

namespace SealedDirectory

namespace Bytes

theorem ofText_injective : Function.Injective ofText := by
  intro left right same
  have read := toText?_ofText left
  rw [same, toText?_ofText] at read
  exact (Option.some.inj read).symm

/-- The bytes that are read as a text are its UTF-8 form. -/
theorem toText?_eq_some_iff
    {bytes : Bytes}
    {text : String} :
    toText? bytes = some text ↔ bytes = ofText text := by
  constructor
  · intro read
    rw [toText?, String.fromUTF8?] at read
    split at read
    · next valid =>
        cases read
        simp [ofText, String.fromUTF8]
    · cases read
  · rintro rfl
    exact toText?_ofText text

end Bytes

namespace Utf8

theorem decode_eq_ok_iff
    {bytes : Bytes}
    {text : String} :
    decode bytes = .ok text ↔ bytes = Bytes.ofText text := by
  rw [← Bytes.toText?_eq_some_iff, decode]
  cases Bytes.toText? bytes with
  | none => simp
  | some read => simp

/-- Bytes that are the form of no text are refused. -/
theorem exists_decode_eq_error
    {bytes : Bytes}
    (foreign : ∀ text, bytes ≠ Bytes.ofText text) :
    ∃ fault, decode bytes = .error fault := by
  cases read : decode bytes with
  | error fault => exact ⟨fault, rfl⟩
  | ok text => exact absurd (decode_eq_ok_iff.mp read) (foreign text)

end Utf8

namespace Base64

/-! ## Groups -/

set_option maxRecDepth 2048 in
theorem symbolByte_of_value?
    {byte : UInt8}
    {number : Nat}
    (found : value? byte = some number) :
    number < 64 ∧ byte = symbolByte number := by
  have bytewise : ∀ code < 256, ∀ number ∈ value? (UInt8.ofNat code),
      number < 64 ∧ UInt8.ofNat code = symbolByte number := by
    decide
  have here := bytewise byte.toNat byte.toNat_lt number
  rw [UInt8.ofNat_toNat] at here
  exact here found

theorem valueAt_eq_ok_iff
    {place number : Nat}
    {byte : UInt8} :
    valueAt place byte = .ok number ↔ number < 64 ∧ byte = symbolByte number := by
  constructor
  · intro read
    rw [valueAt] at read
    split at read
    · next found =>
        cases read
        exact symbolByte_of_value? found
    · cases read
  · rintro ⟨small, rfl⟩
    exact valueAt_symbolByte place small

/-- Reading goes on after a symbol with its number. -/
theorem valueAt_bind_eq_ok
    {place : Nat}
    {byte : UInt8}
    {next : Nat → Except Fault Bytes}
    {read : Bytes}
    (decoded : (valueAt place byte >>= next) = .ok read) :
    ∃ number < 64, byte = symbolByte number ∧ next number = .ok read := by
  cases valued : valueAt place byte with
  | error fault =>
      rw [valued] at decoded
      cases decoded
  | ok number =>
      rcases valueAt_eq_ok_iff.mp valued with ⟨small, symbolic⟩
      rw [valued] at decoded
      exact ⟨number, small, symbolic, decoded⟩

section

variable {first second third fourth : Nat}

/-- A group of four symbols is the written form of the bytes that it gives. -/
theorem written_group
    (one : first < 64)
    (two : second < 64)
    (three : third < 64)
    (four : fourth < 64)
    (rest : Bytes) :
    written (group first second third fourth ++ rest) =
      symbolByte first :: symbolByte second :: symbolByte third :: symbolByte fourth ::
        written rest := by
  have high : first * 4 + second / 16 < 256 := by omega
  have middle : second % 16 * 16 + third / 4 < 256 := by omega
  have low : third % 4 * 64 + fourth < 256 := by omega
  have firstBack : (first * 4 + second / 16) / 4 = first := by omega
  have secondBack : (first * 4 + second / 16) % 4 * 16 +
      (second % 16 * 16 + third / 4) / 16 = second := by omega
  have thirdBack : (second % 16 * 16 + third / 4) % 16 * 4 +
      (third % 4 * 64 + fourth) / 64 = third := by omega
  have fourthBack : (third % 4 * 64 + fourth) % 64 = fourth := by omega
  simp only [group, List.cons_append, List.nil_append, written_cons,
    UInt8.toNat_ofNat_of_lt' high, UInt8.toNat_ofNat_of_lt' middle,
    UInt8.toNat_ofNat_of_lt' low, firstBack, secondBack, thirdBack, fourthBack]

theorem written_group_one
    (one : first < 64)
    (two : second < 64)
    (unused : second % 16 = 0) :
    written ((group first second 0 0).take 1) =
      [symbolByte first, symbolByte second, padding, padding] := by
  have high : first * 4 + second / 16 < 256 := by omega
  have firstBack : (first * 4 + second / 16) / 4 = first := by omega
  have secondBack : (first * 4 + second / 16) % 4 * 16 = second := by omega
  simp only [group, List.take_succ_cons, List.take_zero, written_one,
    UInt8.toNat_ofNat_of_lt' high, firstBack, secondBack]

theorem written_group_two
    (one : first < 64)
    (two : second < 64)
    (three : third < 64)
    (unused : third % 4 = 0) :
    written ((group first second third 0).take 2) =
      [symbolByte first, symbolByte second, symbolByte third, padding] := by
  have high : first * 4 + second / 16 < 256 := by omega
  have middle : second % 16 * 16 + third / 4 < 256 := by omega
  have firstBack : (first * 4 + second / 16) / 4 = first := by omega
  have secondBack : (first * 4 + second / 16) % 4 * 16 +
      (second % 16 * 16 + third / 4) / 16 = second := by omega
  have thirdBack : (second % 16 * 16 + third / 4) % 16 * 4 = third := by omega
  simp only [group, List.take_succ_cons, List.take_zero, written_two,
    UInt8.toNat_ofNat_of_lt' high, UInt8.toNat_ofNat_of_lt' middle, firstBack, secondBack,
    thirdBack]

end

/-! ## The closing group -/

/--
What is read as the last symbols of a text: numbers below sixty-four, and after them
nothing but padding.
-/
theorem decodeLast_eq_ok
    {place paddings : Nat}
    {values : List Nat}
    {last : UInt8}
    {bytes read : Bytes}
    (decoded : decodeLast place values last paddings bytes = .ok read) :
    ∃ numbers count final,
      bytes = numbers.map symbolByte ++ List.replicate count padding ∧
        (∀ number ∈ numbers, number < 64) ∧ (paddings ≠ 0 → numbers = []) ∧
        closing place (values ++ numbers) final (paddings + count) = .ok read := by
  induction bytes generalizing values last paddings with
  | nil => exact ⟨[], 0, last, rfl, by simp, by simp, by simpa [decodeLast] using decoded⟩
  | cons byte rest ih =>
      rw [decodeLast] at decoded
      split at decoded
      · next padded =>
          split at decoded
          · cases decoded
          · rcases ih decoded with ⟨numbers, count, final, rfl, -, none, closed⟩
            cases none (Nat.succ_ne_zero paddings)
            refine ⟨[], count + 1, final, ?_, by simp, fun _ => rfl, ?_⟩
            · rw [padded]
              rfl
            · rw [Nat.add_right_comm, Nat.add_assoc] at closed
              exact closed
      · split at decoded
        · cases decoded
        · next unpadded =>
            rcases valueAt_bind_eq_ok decoded with ⟨number, small, rfl, continued⟩
            rcases ih continued with ⟨numbers, count, final, rfl, below, -, closed⟩
            refine ⟨number :: numbers, count, final, rfl, ?_, fun some => absurd some unpadded, ?_⟩
            · simpa using ⟨small, below⟩
            · rw [List.append_assoc] at closed
              exact closed

/-- The last group of a text is read only in the written form of its bytes. -/
theorem written_of_decodeLast
    {place : Nat}
    {bytes read : Bytes}
    (short : bytes.length ≤ 4)
    (decoded : decodeLast place [] 0 0 bytes = .ok read) :
    bytes = written read := by
  rcases decodeLast_eq_ok decoded with ⟨numbers, count, final, rfl, below, -, closed⟩
  rw [List.nil_append, Nat.zero_add] at closed
  rw [List.length_append, List.length_map, List.length_replicate] at short
  match numbers with
  | [] => cases closed
  | [_] => cases closed
  | [first, second] =>
      rw [closing] at closed
      split_ifs at closed with padded unused
      cases closed
      have one : first < 64 := below first (by simp)
      have two : second < 64 := below second (by simp)
      rw [written_group_one one two (not_not.mp unused), not_not.mp padded]
      rfl
  | [first, second, third] =>
      rw [closing] at closed
      split_ifs at closed with padded unused
      cases closed
      have one : first < 64 := below first (by simp)
      have two : second < 64 := below second (by simp)
      have three : third < 64 := below third (by simp)
      rw [written_group_two one two three (not_not.mp unused), not_not.mp padded]
      rfl
  | first :: second :: third :: fourth :: others =>
      -- Four symbols fill the group, so neither a fifth nor padding has room.
      have full : others = [] ∧ count = 0 := by
        simp only [List.length_cons] at short
        exact ⟨List.eq_nil_of_length_eq_zero (by omega), by omega⟩
      rcases full with ⟨rfl, rfl⟩
      rw [closing] at closed
      cases closed
      have one : first < 64 := below first (by simp)
      have two : second < 64 := below second (by simp)
      have three : third < 64 := below third (by simp)
      have four : fourth < 64 := below fourth (by simp)
      have whole := written_group one two three four []
      rw [List.append_nil, written_nil] at whole
      rw [whole]
      rfl

/-! ## Whole texts -/

theorem written_of_decodeGroups
    {place : Nat}
    {bytes read : Bytes}
    (decoded : decodeGroups place bytes = .ok read) :
    bytes = written read := by
  induction place, bytes using decodeGroups.induct generalizing read with
  | case1 place first second third fourth fifth rest ih =>
      rw [decodeGroups] at decoded
      rcases valueAt_bind_eq_ok decoded with ⟨a, one, rfl, afterFirst⟩
      rcases valueAt_bind_eq_ok afterFirst with ⟨b, two, rfl, afterSecond⟩
      rcases valueAt_bind_eq_ok afterSecond with ⟨c, three, rfl, afterThird⟩
      rcases valueAt_bind_eq_ok afterThird with ⟨d, four, rfl, afterFourth⟩
      cases restRead : decodeGroups (place + 4) (fifth :: rest) with
      | error fault =>
          rw [restRead] at afterFourth
          cases afterFourth
      | ok tail =>
          rw [restRead] at afterFourth
          cases afterFourth
          rw [written_group one two three four, ← ih restRead]
  | case2 place =>
      rw [decodeGroups] at decoded
      cases decoded
      exact written_nil.symm
  | case3 place bytes many some =>
      have short : bytes.length ≤ 4 := by
        rcases bytes with
          _ | ⟨first, _ | ⟨second, _ | ⟨third, _ | ⟨fourth, _ | ⟨fifth, rest⟩⟩⟩⟩⟩
        case cons.cons.cons.cons.cons =>
          exact (many first second third fourth fifth rest rfl).elim
        all_goals simp
      rw [decodeGroups_of_length_le place some short] at decoded
      exact written_of_decodeLast short decoded

/-- A text is read as bytes exactly when it is their written form. -/
theorem decode_eq_ok_iff
    {text : String}
    {bytes : Bytes} :
    decode text = .ok bytes ↔ text = encode bytes := by
  constructor
  · intro decoded
    rw [decode, decodeBytes] at decoded
    split at decoded
    · cases decoded
    · exact Bytes.ofText_injective (written_of_decodeGroups decoded)
  · rintro rfl
    exact decode_encode bytes

/-- A text that is the written form of no bytes is refused. -/
theorem exists_decode_eq_error
    {text : String}
    (foreign : ∀ bytes, text ≠ encode bytes) :
    ∃ fault, decode text = .error fault := by
  cases read : decode text with
  | error fault => exact ⟨fault, rfl⟩
  | ok bytes => exact absurd (decode_eq_ok_iff.mp read) (foreign bytes)

end Base64

end SealedDirectory
