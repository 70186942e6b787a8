import SealedDirectory.Cipher.Gcm
import SealedDirectory.Key.Ring

/-!
# Sealed values

A sealed value is the Base64 text of a nonce followed by the authenticated encryption
of a text under a key and that nonce.  Opening it checks, in this order, that it is
such a text, that it is authentic, that the bytes are a text, and that this text has
the digest that was stored beside it.

A stored private text is a sealed value together with that digest and the version of
the key.
-/

namespace SealedDirectory

/-- Twelve bytes that are used once with a key. -/
structure Nonce where
  bytes : Bytes
  size : bytes.length = Gcm.nonceLength
  deriving DecidableEq

/-- The first twelve of random bytes, followed by zeros if there are fewer. -/
def Nonce.ofRandom (bytes : Bytes) : Nonce :=
  ⟨(bytes ++ List.replicate 12 0).take 12, by simp [Gcm.nonceLength]⟩

namespace Envelope

/-- Seals a text under a key with a nonce. -/
def enclose (key : Key) (nonce : Nonce) (text : String) : String :=
  Base64.encode (nonce.bytes ++ Gcm.sealed key.bytes nonce.bytes (Bytes.ofText text))

/-- Opens what follows the nonce and reads it as a text. -/
def openedFrame (key : Key) (framed : Bytes) : Except Fault String :=
  if framed.length < Gcm.nonceLength then .error (.malformed (.short framed.length))
  else
    match Gcm.opened? key.bytes (framed.take Gcm.nonceLength)
        (framed.drop Gcm.nonceLength) with
    | none => .error .notAuthentic
    | some bytes =>
        match Utf8.decode bytes with
        | .ok text => .ok text
        | .error fault => .error (.sealing (.notText fault))

/-- Opens a sealed value and compares the text with its digest. -/
def opened (key : Key) (ciphertext digest : String) : Except Fault String :=
  match Base64.decode ciphertext with
  | .error fault => .error (.malformed (.encoding fault))
  | .ok framed =>
      match openedFrame key framed with
      | .error fault => .error fault
      | .ok text => if fingerprint text = digest then .ok text else .error .digestMismatch

end Envelope

/-- A private text as it is stored. -/
structure SealedField where
  ciphertext : String
  digest : String
  /-- The version of the key it is sealed under. -/
  keyVersion : KeyVersion
  deriving DecidableEq, Repr

namespace SealedField

/-- Seals a text under a key of a given version. -/
def enclose (key : Key) (version : KeyVersion) (nonce : Nonce) (text : String) : SealedField :=
  { ciphertext := Envelope.enclose key nonce text
    digest := fingerprint text
    keyVersion := version }

/-- Opens a stored text with the key that its version names. -/
def opened (field : SealedField) (ring : KeyRing) : Except Fault String := do
  let key ← ring.get field.keyVersion
  Envelope.opened key field.ciphertext field.digest

/-- The fields of a stored text in a document. -/
def fields :=
  Json.Fields.cons ⟨"ciphertext", .text, none⟩ <|
  Json.Fields.cons ⟨"digest", .text, none⟩ <|
  Json.Fields.cons ⟨"key_version", Id.codec .key, none⟩ Json.Fields.nil

/-- How stored texts are written and read. -/
def codec : Json.Codec SealedField :=
  Json.Codec.record "EncryptedField" fields
    (fun (ciphertext, digest, keyVersion, ()) => { ciphertext, digest, keyVersion })
    (fun field => (field.ciphertext, field.digest, field.keyVersion, ()))

end SealedField

end SealedDirectory
