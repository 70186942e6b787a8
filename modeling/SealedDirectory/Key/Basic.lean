import SealedDirectory.Fault

/-!
# Keys

A key is thirty-two bytes.  It is stored in Base64 and never shown.
-/

namespace SealedDirectory

structure Key where
  bytes : Bytes
  size : bytes.length = 32
  deriving DecidableEq

namespace Key

/-- The key of a byte string, which must have thirty-two bytes. -/
def ofBytes (bytes : Bytes) : Except Fault Key :=
  if size : bytes.length = 32 then .ok ⟨bytes, size⟩ else .error (.keyLength bytes.length)

/-- The key written in Base64, with blanks allowed around it. -/
def ofBase64 (text : String) : Except Fault Key :=
  match Base64.decode (Text.trim text) with
  | .ok bytes => ofBytes bytes
  | .error fault => .error (.config (.keyEncoding fault))

def toBase64 (key : Key) : String :=
  Base64.encode key.bytes

/-- What is shown in place of a key. -/
def redacted (_ : Key) : String :=
  "SymmetricKey([REDACTED])"

/-- The first thirty-two of random bytes, followed by zeros if there are fewer. -/
def ofRandom (bytes : Bytes) : Key :=
  ⟨(bytes ++ List.replicate 32 0).take 32, by simp⟩

theorem ofBytes_bytes (key : Key) : ofBytes key.bytes = .ok key := by
  simp [ofBytes, key.size]

theorem ofBytes_eq_ok_iff {bytes : Bytes} {key : Key} :
    ofBytes bytes = .ok key ↔ bytes = key.bytes := by
  constructor
  · intro given
    unfold ofBytes at given
    split at given
    · cases given
      rfl
    · cases given
  · rintro rfl
    exact ofBytes_bytes key

end Key

end SealedDirectory
