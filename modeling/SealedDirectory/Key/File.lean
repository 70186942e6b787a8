import SealedDirectory.Key.Envelope

/-!
# Key files

The key file holds every key that was ever used, in Base64, and names the version
that new values are sealed under.  Rotation adds a key and makes it current; no key
is ever taken out.
-/

namespace SealedDirectory

structure KeyFile where
  current : KeyVersion
  keys : Versions String
  deriving DecidableEq

namespace KeyFile

def fresh (version : KeyVersion) (key : Key) : KeyFile :=
  { current := version, keys := Versions.empty.insert version key.toBase64 }

/-- Adds a fresh key and makes it current. -/
def rotate (file : KeyFile) (version : KeyVersion) (key : Key) : KeyFile :=
  { current := version, keys := file.keys.insert version key.toBase64 }

def ring (file : KeyFile) : Except Fault KeyRing := do
  let keys ← file.keys.traverse Key.ofBase64
  KeyRing.ofKeys keys file.current

/-- How the keys are written and read. -/
def keysCodec : Json.Codec (Versions String) :=
  Json.Codec.assoc .text Id.bare
    (fun text =>
      match Uuid.parse text with
      | .ok uuid => .ok (⟨uuid⟩ : KeyVersion)
      | .error fault => .error ("UUID parsing failed: " ++ fault.message))
    Versions.empty Versions.insert Versions.entries

/-- The fields of a key file in its document. -/
def fields :=
  Json.Fields.cons ⟨"current", Id.codec .key, none⟩ <|
  Json.Fields.cons ⟨"keys", keysCodec, none⟩ Json.Fields.nil

/-- How key files are written and read. -/
def codec : Json.Codec KeyFile :=
  Json.Codec.record "KeyFile" fields
    (fun (current, keys, ()) => { current, keys })
    (fun file => (file.current, file.keys, ()))

def text (file : KeyFile) : String :=
  (codec.write file).pretty

/-- Reads the text of a key file. -/
def parse (text : String) : Except Fault KeyFile :=
  (codec.decode text).mapError fun refusal => .config (.badKeyFile refusal)

/-- Reads the key file at a path, where there must be one. -/
def ofFile? (path : String) (file : Option String) : Except Fault KeyFile :=
  file.elim (.error (.config (.noKeyFile path))) parse

end KeyFile

end SealedDirectory
