import SealedDirectory.Proofs.Bytes.Canonical
import SealedDirectory.Proofs.Key.Sealing

/-!
# What a sealed value can be

Whatever stands in the place of a sealed value is the written form of no bytes, or of fewer
bytes than a nonce has, or of a nonce followed by bytes that are the sealed form of nothing,
by the sealed form of bytes that are no text, or by the sealed form of a text.  Opening tells
these apart, and the text it gives is the one that was sealed.

Reading back is used in both directions here: what was written is read, and what is read was
written.  Nothing is assumed of the cipher, whose sealed forms are those that it opens.
-/

namespace SealedDirectory

namespace Gcm

theorem length_sealed (key nonce text : Bytes) :
    (sealed key nonce text).length = text.length + tagLength := by
  have covered := le_length_mask (Aes.expandKey key) nonce text.length
  rw [sealed, List.length_append, length_tag, Bytes.xor_length, Nat.min_eq_left covered]

/-- Bytes open to a text exactly when they are its sealed form. -/
theorem opened?_eq_some_iff
    {key nonce given text : Bytes} :
    opened? key nonce given = some text ↔ given = sealed key nonce text := by
  constructor
  · intro opening
    rw [opened?] at opening
    split at opening
    · cases opening
    · simp only at opening
      split at opening
      · next tagged =>
          have unmasked := Option.some.inj opening
          have covered := le_length_mask (Aes.expandKey key) nonce
            (given.take (given.length - tagLength)).length
          have sameLength :
              text.length = (given.take (given.length - tagLength)).length := by
            rw [← unmasked, Bytes.xor_length, Nat.min_eq_left covered]
          have masked :
              Bytes.xor text (mask (Aes.expandKey key) nonce text.length) =
                given.take (given.length - tagLength) := by
            rw [sameLength, ← unmasked, Bytes.xor_xor_cancel _ _ covered]
          rw [sealed, masked, ← tagged, List.take_append_drop]
      · cases opening
  · rintro rfl
    exact opened?_sealed key nonce text

/-- Bytes that are the sealed form of nothing are refused. -/
theorem opened?_eq_none_iff
    {key nonce given : Bytes} :
    opened? key nonce given = none ↔ ∀ text, given ≠ sealed key nonce text := by
  rw [Option.eq_none_iff_forall_ne_some]
  exact forall_congr' fun text => not_congr opened?_eq_some_iff

end Gcm

namespace Envelope

/-- The text of a nonce followed by other bytes. -/
def framed (nonce : Nonce) (rest : Bytes) : String :=
  Base64.encode (nonce.bytes ++ rest)

theorem enclose_eq_framed
    (key : Key)
    (nonce : Nonce)
    (text : String) :
    enclose key nonce text =
      framed nonce (Gcm.sealed key.bytes nonce.bytes (Bytes.ofText text)) :=
  rfl

/-- Bytes that are at least as many as a nonce has begin with one. -/
theorem exists_framed
    {bytes : Bytes}
    (large : Gcm.nonceLength ≤ bytes.length) :
    ∃ (nonce : Nonce) (rest : Bytes),
      Base64.encode bytes = framed nonce rest ∧
        bytes.length = Gcm.nonceLength + rest.length := by
  refine ⟨⟨bytes.take Gcm.nonceLength, ?_⟩, bytes.drop Gcm.nonceLength, ?_, ?_⟩
  · rw [List.length_take, Nat.min_eq_left large]
  · rw [framed, List.take_append_drop]
  · rw [List.length_drop]
    omega

/-! ## Opening -/

section

variable {key : Key} {digest : String}

theorem opened_unwritten
    (key : Key)
    {ciphertext : String}
    (digest : String)
    (foreign : ∀ bytes, ciphertext ≠ Base64.encode bytes) :
    ∃ fault, opened key ciphertext digest = .error (.malformed (.encoding fault)) := by
  rcases Base64.exists_decode_eq_error foreign with ⟨fault, refused⟩
  exact ⟨fault, by rw [opened, refused]⟩

theorem opened_short
    {bytes : Bytes}
    (small : bytes.length < Gcm.nonceLength) :
    opened key (Base64.encode bytes) digest = .error (.malformed (.short bytes.length)) := by
  rw [opened, Base64.decode_encode]
  simp only [openedFrame, if_pos small]

/-- What opening says of bytes that follow a nonce. -/
def openedRest (key : Key) (nonce rest : Bytes) : Except Fault String :=
  match Gcm.opened? key.bytes nonce rest with
  | none => .error .notAuthentic
  | some bytes =>
      match Utf8.decode bytes with
      | .ok text => .ok text
      | .error fault => .error (.sealing (.notText fault))

theorem openedFrame_append
    (nonce : Nonce)
    (rest : Bytes) :
    openedFrame key (nonce.bytes ++ rest) = openedRest key nonce.bytes rest := by
  have large : ¬ (nonce.bytes ++ rest).length < Gcm.nonceLength := by
    rw [List.length_append, nonce.size]
    omega
  calc
    openedFrame key (nonce.bytes ++ rest) =
        openedRest key ((nonce.bytes ++ rest).take Gcm.nonceLength)
          ((nonce.bytes ++ rest).drop Gcm.nonceLength) := if_neg large
    _ = openedRest key nonce.bytes rest := by
      rw [← nonce.size, List.take_left, List.drop_left]

theorem opened_unsealed
    {nonce : Nonce}
    {rest : Bytes}
    (foreign : ∀ bytes, rest ≠ Gcm.sealed key.bytes nonce.bytes bytes) :
    opened key (framed nonce rest) digest = .error .notAuthentic := by
  rw [opened, framed, Base64.decode_encode]
  simp only [openedFrame_append, openedRest, Gcm.opened?_eq_none_iff.mpr foreign]

theorem opened_unreadable
    (key : Key)
    (nonce : Nonce)
    {bytes : Bytes}
    (digest : String)
    (foreign : ∀ text, bytes ≠ Bytes.ofText text) :
    ∃ fault, opened key (framed nonce (Gcm.sealed key.bytes nonce.bytes bytes)) digest =
      .error (.sealing (.notText fault)) := by
  rcases Utf8.exists_decode_eq_error foreign with ⟨fault, refused⟩
  refine ⟨fault, ?_⟩
  rw [opened, framed, Base64.decode_encode]
  simp only [openedFrame_append, openedRest, Gcm.opened?_sealed, refused]

theorem opened_mismatched
    {text : String}
    (nonce : Nonce)
    (other : digest ≠ fingerprint text) :
    opened key (enclose key nonce text) digest = .error .digestMismatch := by
  rw [opened, enclose, Base64.decode_encode]
  simp only [openedFrame_enclosed, if_neg other.symm]

end

/-! ## What opening can answer -/

/-- What stands in the place of a sealed value, and what opening it under a key answers. -/
inductive Opens (key : Key) : (ciphertext digest : String) → Except Fault String → Prop
  | unwritten
      {ciphertext digest : String}
      (fault : Base64.Fault)
      (foreign : ∀ bytes, ciphertext ≠ Base64.encode bytes) :
      Opens key ciphertext digest (.error (.malformed (.encoding fault)))
  | short
      {digest : String}
      (bytes : Bytes)
      (small : bytes.length < Gcm.nonceLength) :
      Opens key (Base64.encode bytes) digest (.error (.malformed (.short bytes.length)))
  | unsealed
      {digest : String}
      (nonce : Nonce)
      (rest : Bytes)
      (foreign : ∀ bytes, rest ≠ Gcm.sealed key.bytes nonce.bytes bytes) :
      Opens key (framed nonce rest) digest (.error .notAuthentic)
  | unreadable
      {digest : String}
      (nonce : Nonce)
      (bytes : Bytes)
      (fault : Utf8.Fault)
      (foreign : ∀ text, bytes ≠ Bytes.ofText text) :
      Opens key (framed nonce (Gcm.sealed key.bytes nonce.bytes bytes)) digest
        (.error (.sealing (.notText fault)))
  | mismatched
      {digest : String}
      (nonce : Nonce)
      (text : String)
      (other : digest ≠ fingerprint text) :
      Opens key (enclose key nonce text) digest (.error .digestMismatch)
  | accepted
      (nonce : Nonce)
      (text : String) :
      Opens key (enclose key nonce text) (fingerprint text) (.ok text)

theorem opens_framed
    (key : Key)
    (nonce : Nonce)
    (rest : Bytes)
    (digest : String) :
    Opens key (framed nonce rest) digest (opened key (framed nonce rest) digest) := by
  cases opening : Gcm.opened? key.bytes nonce.bytes rest with
  | none =>
      have foreign := Gcm.opened?_eq_none_iff.mp opening
      rw [opened_unsealed foreign]
      exact .unsealed nonce rest foreign
  | some bytes =>
      cases Gcm.opened?_eq_some_iff.mp opening
      by_cases foreign : ∀ text, bytes ≠ Bytes.ofText text
      · rcases opened_unreadable key nonce digest foreign with ⟨fault, refused⟩
        rw [refused]
        exact .unreadable nonce bytes fault foreign
      · rcases not_forall_not.mp foreign with ⟨text, rfl⟩
        rw [← enclose_eq_framed]
        by_cases same : digest = fingerprint text
        · cases same
          rw [opened_enclose]
          exact .accepted nonce text
        · rw [opened_mismatched nonce same]
          exact .mismatched nonce text same

theorem opens
    (key : Key)
    (ciphertext digest : String) :
    Opens key ciphertext digest (opened key ciphertext digest) := by
  by_cases foreign : ∀ bytes, ciphertext ≠ Base64.encode bytes
  · rcases opened_unwritten key digest foreign with ⟨fault, refused⟩
    rw [refused]
    exact .unwritten fault foreign
  rcases not_forall_not.mp foreign with ⟨bytes, rfl⟩
  rcases Nat.lt_or_ge bytes.length Gcm.nonceLength with small | large
  · rw [opened_short small]
    exact .short bytes small
  · rcases exists_framed large with ⟨nonce, rest, same, -⟩
    rw [same]
    exact opens_framed key nonce rest digest

/-! ## The format -/

section

variable {key : Key} {ciphertext digest : String}

theorem opened_eq_ok_iff {text : String} :
    opened key ciphertext digest = .ok text ↔
      (∃ nonce, ciphertext = enclose key nonce text) ∧ digest = fingerprint text := by
  constructor
  · intro result
    have opening := opens key ciphertext digest
    rw [result] at opening
    cases opening with
    | accepted nonce => exact ⟨⟨nonce, rfl⟩, rfl⟩
  · rintro ⟨⟨nonce, rfl⟩, rfl⟩
    exact opened_enclose key nonce text

theorem opened_eq_malformed_iff :
    (∃ reason, opened key ciphertext digest = .error (.malformed reason)) ↔
      (∀ bytes, ciphertext ≠ Base64.encode bytes) ∨
        ∃ bytes, ciphertext = Base64.encode bytes ∧ bytes.length < Gcm.nonceLength := by
  constructor
  · rintro ⟨reason, result⟩
    have opening := opens key ciphertext digest
    rw [result] at opening
    cases opening with
    | unwritten fault foreign => exact .inl foreign
    | short bytes small => exact .inr ⟨bytes, rfl, small⟩
  · rintro (foreign | ⟨bytes, rfl, small⟩)
    · rcases opened_unwritten key digest foreign with ⟨fault, refused⟩
      exact ⟨.encoding fault, refused⟩
    · exact ⟨.short bytes.length, opened_short small⟩

theorem opened_eq_notAuthentic_iff :
    opened key ciphertext digest = .error .notAuthentic ↔
      ∃ nonce rest, ciphertext = framed nonce rest ∧
        ∀ bytes, rest ≠ Gcm.sealed key.bytes nonce.bytes bytes := by
  constructor
  · intro result
    have opening := opens key ciphertext digest
    rw [result] at opening
    cases opening with
    | unsealed nonce rest foreign => exact ⟨nonce, rest, rfl, foreign⟩
  · rintro ⟨nonce, rest, rfl, foreign⟩
    exact opened_unsealed foreign

/-- Bytes with room for a nonce and none for a tag are never authentic. -/
theorem opened_of_length_lt
    {bytes : Bytes}
    (large : Gcm.nonceLength ≤ bytes.length)
    (small : bytes.length < Gcm.nonceLength + Gcm.tagLength) :
    opened key (Base64.encode bytes) digest = .error .notAuthentic := by
  rcases exists_framed large with ⟨nonce, rest, same, length⟩
  rw [same]
  refine opened_unsealed fun inner sealing => ?_
  rw [length, sealing, Gcm.length_sealed] at small
  omega

theorem opened_eq_sealing_iff :
    (∃ fault, opened key ciphertext digest = .error (.sealing fault)) ↔
      ∃ nonce bytes, ciphertext = framed nonce (Gcm.sealed key.bytes nonce.bytes bytes) ∧
        ∀ text, bytes ≠ Bytes.ofText text := by
  constructor
  · rintro ⟨fault, result⟩
    have opening := opens key ciphertext digest
    rw [result] at opening
    cases opening with
    | unreadable nonce bytes fault foreign => exact ⟨nonce, bytes, rfl, foreign⟩
  · rintro ⟨nonce, bytes, rfl, foreign⟩
    rcases opened_unreadable key nonce digest foreign with ⟨fault, refused⟩
    exact ⟨.notText fault, refused⟩

theorem opened_eq_mismatch_iff :
    opened key ciphertext digest = .error .digestMismatch ↔
      ∃ nonce text, ciphertext = enclose key nonce text ∧ digest ≠ fingerprint text := by
  constructor
  · intro result
    have opening := opens key ciphertext digest
    rw [result] at opening
    cases opening with
    | mismatched nonce text other => exact ⟨nonce, text, rfl, other⟩
  · rintro ⟨nonce, text, rfl, other⟩
    exact opened_mismatched nonce other

end

/--
The format of sealed values under a key: what is accepted beside a digest, and which fault
answers everything else.
-/
structure Exact
    (key : Key)
    (ciphertext digest : String) : Prop where
  accepted :
    ∀ text, opened key ciphertext digest = .ok text ↔
      (∃ nonce, ciphertext = enclose key nonce text) ∧ digest = fingerprint text
  malformed :
    (∃ reason, opened key ciphertext digest = .error (.malformed reason)) ↔
      (∀ bytes, ciphertext ≠ Base64.encode bytes) ∨
        ∃ bytes, ciphertext = Base64.encode bytes ∧ bytes.length < Gcm.nonceLength
  notAuthentic :
    opened key ciphertext digest = .error .notAuthentic ↔
      ∃ nonce rest, ciphertext = framed nonce rest ∧
        ∀ bytes, rest ≠ Gcm.sealed key.bytes nonce.bytes bytes
  withoutTag :
    ∀ bytes, ciphertext = Base64.encode bytes → Gcm.nonceLength ≤ bytes.length →
      bytes.length < Gcm.nonceLength + Gcm.tagLength →
        opened key ciphertext digest = .error .notAuthentic
  unreadable :
    (∃ fault, opened key ciphertext digest = .error (.sealing fault)) ↔
      ∃ nonce bytes, ciphertext = framed nonce (Gcm.sealed key.bytes nonce.bytes bytes) ∧
        ∀ text, bytes ≠ Bytes.ofText text
  mismatched :
    opened key ciphertext digest = .error .digestMismatch ↔
      ∃ nonce text, ciphertext = enclose key nonce text ∧ digest ≠ fingerprint text
  noOther :
    ∀ fault, opened key ciphertext digest = .error fault →
      (∃ reason, fault = .malformed reason) ∨ fault = .notAuthentic ∨
        (∃ reason, fault = .sealing reason) ∨ fault = .digestMismatch
  undone :
    ∀ nonce text, opened key (enclose key nonce text) (fingerprint text) = .ok text
  onlyForm :
    ∀ bytes, Base64.decode ciphertext = .ok bytes → ciphertext = Base64.encode bytes

/--
Sealed values have exactly this format, under every key and beside every digest.  In
particular what is enclosed is opened again, and bytes have a single accepted text.
-/
theorem format_is_exact
    (key : Key)
    (ciphertext digest : String) :
    Exact key ciphertext digest where
  accepted _ := opened_eq_ok_iff
  malformed := opened_eq_malformed_iff
  notAuthentic := opened_eq_notAuthentic_iff
  withoutTag := by
    rintro bytes rfl large small
    exact opened_of_length_lt large small
  unreadable := opened_eq_sealing_iff
  mismatched := opened_eq_mismatch_iff
  noOther := by
    intro fault result
    have opening := opens key ciphertext digest
    rw [result] at opening
    cases opening with
    | unwritten fault => exact .inl ⟨.encoding fault, rfl⟩
    | short bytes => exact .inl ⟨.short bytes.length, rfl⟩
    | unsealed => exact .inr (.inl rfl)
    | unreadable nonce bytes fault => exact .inr (.inr (.inl ⟨.notText fault, rfl⟩))
    | mismatched => exact .inr (.inr (.inr rfl))
  undone := opened_enclose key
  onlyForm _ := Base64.decode_eq_ok_iff.mp

end Envelope

end SealedDirectory
