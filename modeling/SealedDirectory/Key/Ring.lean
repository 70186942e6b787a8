import SealedDirectory.Key.Basic
import SealedDirectory.Key.Versions

/-!
# Key rings

A key ring holds keys by their versions and names one version as the current one,
which is always among them.  New values are sealed under the current key; the other
keys stay so that older values can still be opened.
-/

namespace SealedDirectory

/-- Keys by version, one of them current. -/
structure KeyRing where
  keys : Versions Key
  current : KeyVersion
  held : keys.contains current = true

namespace KeyRing

/-- The ring of keys, if the current version is among them. -/
def ofKeys (keys : Versions Key) (current : KeyVersion) : Except Fault KeyRing :=
  if held : keys.contains current = true then .ok ⟨keys, current, held⟩
  else .error (.currentKeyNotFound current)

/-- The ring of byte strings, of which the current one must exist and all must be keys. -/
def ofBytes (bytes : Versions Bytes) (current : KeyVersion) : Except Fault KeyRing :=
  if bytes.contains current then do
    let keys ← bytes.traverse Key.ofBytes
    ofKeys keys current
  else .error (.currentKeyNotFound current)

def get (ring : KeyRing) (version : KeyVersion) : Except Fault Key :=
  match ring.keys.find? version with
  | some key => .ok key
  | none => .error (.keyNotFound version)

def currentKey (ring : KeyRing) : Key :=
  (ring.keys.find? ring.current).get ring.held

def versions (ring : KeyRing) : List KeyVersion :=
  ring.keys.keys

def contains (ring : KeyRing) (version : KeyVersion) : Bool :=
  ring.keys.contains version

def size (ring : KeyRing) : Nat :=
  ring.keys.size

def isEmpty (ring : KeyRing) : Bool :=
  ring.size == 0

theorem get_current (ring : KeyRing) : ring.get ring.current = .ok ring.currentKey := by
  obtain ⟨key, found⟩ := Option.isSome_iff_exists.1 ring.held
  simp [get, currentKey, found]

end KeyRing

end SealedDirectory
