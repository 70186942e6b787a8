import SealedDirectory.Key.Envelope
import SealedDirectory.Proofs.Bytes.Written

/-!
# What was sealed can be opened

A text that was sealed under the key of a version is opened by every ring that has that
key, and it has the digest that was stored beside it.  The mask of the cipher is added
twice, and the tag that is recomputed is the one that was appended; nothing else about
the cipher matters here.
-/

namespace SealedDirectory

namespace Gcm

theorem length_tag
    (words : Array Aes.Column)
    (nonce masked : Bytes) :
    (tag words nonce masked).length = tagLength := by
  simp [tag, blockOfNat, Aes.encryptBlock_length, tagLength]

theorem length_stream
    (words : Array Aes.Column)
    (nonce : Bytes)
    (counter count : Nat) :
    (stream words nonce counter count).length = 16 * count := by
  induction count generalizing counter with
  | zero => rfl
  | succ count ih =>
      rw [stream, List.length_append, Aes.encryptBlock_length, ih]
      omega

/-- The mask covers a text of its length. -/
theorem le_length_mask
    (words : Array Aes.Column)
    (nonce : Bytes)
    (length : Nat) :
    length ≤ (mask words nonce length).length := by
  rw [mask, length_stream]
  omega

/-- Masked bytes with their tag are opened by adding the mask again. -/
theorem opened?_append_tag (key nonce masked : Bytes) :
    opened? key nonce (masked ++ tag (Aes.expandKey key) nonce masked) =
      some (Bytes.xor masked (mask (Aes.expandKey key) nonce masked.length)) := by
  have tagged := length_tag (Aes.expandKey key) nonce masked
  have whole : (masked ++ tag (Aes.expandKey key) nonce masked).length - tagLength =
      masked.length := by
    rw [List.length_append, tagged, Nat.add_sub_cancel]
  have large : ¬ (masked ++ tag (Aes.expandKey key) nonce masked).length < tagLength := by
    rw [List.length_append, tagged]
    omega
  rw [opened?, if_neg large]
  simp only [whole, List.take_left, List.drop_left, if_true]

/-- A sealed text is opened under its key and nonce. -/
theorem opened?_sealed (key nonce text : Bytes) :
    opened? key nonce (sealed key nonce text) = some text := by
  have covered := le_length_mask (Aes.expandKey key) nonce text.length
  have sameLength :
      (Bytes.xor text (mask (Aes.expandKey key) nonce text.length)).length =
        text.length := by
    rw [Bytes.xor_length]
    exact Nat.min_eq_left covered
  rw [sealed, opened?_append_tag, sameLength, Bytes.xor_xor_cancel _ _ covered]

end Gcm

namespace Envelope

theorem openedFrame_enclosed
    (key : Key)
    (nonce : Nonce)
    (text : String) :
    openedFrame key
        (nonce.bytes ++ Gcm.sealed key.bytes nonce.bytes (Bytes.ofText text)) =
      .ok text := by
  have large : ¬ (nonce.bytes ++
      Gcm.sealed key.bytes nonce.bytes (Bytes.ofText text)).length < Gcm.nonceLength := by
    rw [List.length_append, nonce.size]
    omega
  rw [openedFrame, if_neg large, ← nonce.size, List.take_left, List.drop_left,
    Gcm.opened?_sealed]
  simp only [Utf8.decode_ofText]

theorem opened_enclose
    (key : Key)
    (nonce : Nonce)
    (text : String) :
    opened key (enclose key nonce text) (fingerprint text) = .ok text := by
  rw [opened, enclose, Base64.decode_encode]
  simp only [openedFrame_enclosed, if_true]

end Envelope

/-- A text that was sealed under the current key is opened with the same ring. -/
theorem SealedField.opened_enclose
    (ring : KeyRing)
    (nonce : Nonce)
    (text : String) :
    (SealedField.enclose ring.currentKey ring.current nonce text).opened ring =
      .ok text := by
  rw [SealedField.opened, SealedField.enclose, ring.get_current]
  exact Envelope.opened_enclose ring.currentKey nonce text

end SealedDirectory
