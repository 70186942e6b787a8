import SealedDirectory.Proofs.Key.Gathering

/-!
# Rings of byte strings

There are two ways to a ring of byte strings under versions.  Either the byte strings are
handed over as they are: then the current version is looked for among them first, and the
keys that come of them are not asked for it again.  Or they are made keys one by one, and
the keys are handed over.  In both the entries are met in an order that nobody chose.

This file proves that the same rings come of it, says when there is none, and says what a
ring answers.  In particular the current key of a ring is always found.
-/

namespace SealedDirectory

/-! ## Keys of byte strings -/

namespace Key

variable {bytes : Bytes}

theorem exists_ofBytes_eq_ok_iff :
    (∃ key, ofBytes bytes = .ok key) ↔ bytes.length = 32 := by
  rw [ofBytes]
  split
  · next size => simp [size]
  · next unsized => simp [unsized]

theorem ofBytes_eq_error_iff {fault : Fault} :
    ofBytes bytes = .error fault ↔ bytes.length ≠ 32 ∧ fault = .keyLength bytes.length := by
  rw [ofBytes]
  split
  · next size => simp [size]
  · next unsized => simp [unsized, eq_comm]

end Key

namespace KeyRing

/-! ## Rings and their parts -/

/-- What a ring consists of. -/
def parts (ring : KeyRing) : Versions Key × KeyVersion :=
  (ring.keys, ring.current)

theorem parts_injective : Function.Injective parts := by
  rintro ⟨keys, current, held⟩ ⟨others, version, found⟩ same
  cases same
  rfl

/-! ## Two ways to a ring -/

/--
The keys of byte strings, which are met in some order, with the version that is to be
current.  The byte strings are asked for that version, but the keys are not.
-/
def gathered
    (met : List (KeyVersion × Bytes))
    (current : KeyVersion) :
    Except Fault (Versions Key × KeyVersion) :=
  if current ∈ met.map (·.1) then do
    let keys ← Versions.gather Key.ofBytes met
    return (keys, current)
  else .error (.currentKeyNotFound current)

/-- The ring of the keys that byte strings are made one by one as they are met. -/
def converted
    (met : List (KeyVersion × Bytes))
    (current : KeyVersion) :
    Except Fault KeyRing := do
  let keys ← Versions.gather Key.ofBytes met
  ofKeys keys current

variable
  {bytes : Versions Bytes}
  {met : List (KeyVersion × Bytes)}
  {current : KeyVersion}
  {ring : KeyRing}

theorem gathered_eq_ok
    {made : Versions Key × KeyVersion} :
    gathered met current = .ok made ↔
      current ∈ met.map (·.1) ∧ Versions.gather Key.ofBytes met = .ok made.1 ∧
        made.2 = current := by
  rw [gathered]
  split
  · next asked =>
      cases Versions.gather Key.ofBytes met with
      | error fault => simp [bind, Except.bind]
      | ok keys => simp [bind, Except.bind, pure, Except.pure, asked, Prod.ext_iff, eq_comm]
  · next missed => simp [missed]

/-- The keys need not be asked for the current version again. -/
theorem map_parts_ofBytes :
    (ofBytes bytes current).map parts = gathered bytes.entries current := by
  have asked : current ∈ bytes.entries.map (·.1) ↔ bytes.contains current = true :=
    Versions.mem_iff_contains (.refl _)
  rw [ofBytes, gathered, Versions.gather_entries]
  by_cases held : bytes.contains current = true
  · rw [if_pos held, if_pos (asked.mpr held)]
    cases made : bytes.traverse Key.ofBytes with
    | error fault => rfl
    | ok keys =>
        -- The second check is passed because the first one was.
        have kept : keys.contains current = true :=
          (Versions.contains_traverse made current).trans held
        change (ofKeys keys current).map parts = .ok (keys, current)
        rw [ofKeys, dif_pos kept]
        rfl
  · rw [if_neg held, if_neg (mt asked.mp held)]
    rfl

theorem ofBytes_eq_ok_iff :
    ofBytes bytes current = .ok ring ↔
      bytes.traverse Key.ofBytes = .ok ring.keys ∧ ring.current = current := by
  have byParts : ofBytes bytes current = .ok ring ↔
      (ofBytes bytes current).map parts = .ok ring.parts := by
    cases ofBytes bytes current with
    | error fault => simp [Except.map]
    | ok made => simp [Except.map, parts_injective.eq_iff]
  rw [byParts, map_parts_ofBytes, gathered_eq_ok, Versions.gather_entries]
  constructor
  · rintro ⟨-, both⟩
    exact both
  · rintro ⟨made, rfl⟩
    have held : bytes.contains ring.current = true :=
      Versions.contains_traverse made ring.current ▸ ring.held
    exact ⟨(Versions.mem_iff_contains (.refl _)).mpr held, made, rfl⟩

/-- The keys that are made first give the same rings. -/
theorem converted_eq_ok_iff
    (visited : met.Perm bytes.entries) :
    converted met current = .ok ring ↔ ofBytes bytes current = .ok ring := by
  rw [ofBytes_eq_ok_iff, ← Versions.gather_eq_ok_iff visited, converted]
  cases Versions.gather Key.ofBytes met with
  | error fault => simp [bind, Except.bind]
  | ok keys =>
      refine ofKeys_eq_ok_iff.trans ?_
      rw [Except.ok.injEq, eq_comm (b := current)]

/-- What is gathered of byte strings are the parts of their ring. -/
theorem gathered_eq_ok_iff
    (visited : met.Perm bytes.entries)
    {made : Versions Key × KeyVersion} :
    gathered met current = .ok made ↔
      ∃ ring, ofBytes bytes current = .ok ring ∧ ring.parts = made := by
  rw [gathered_eq_ok, Versions.mem_iff_contains visited, Versions.gather_eq_ok_iff visited]
  constructor
  · rintro ⟨held, keys, rfl⟩
    have kept : made.1.contains made.2 = true :=
      (Versions.contains_traverse keys made.2).trans held
    exact ⟨⟨made.1, made.2, kept⟩, ofBytes_eq_ok_iff.mpr ⟨keys, rfl⟩, rfl⟩
  · rintro ⟨ring, given, rfl⟩
    obtain ⟨keys, rfl⟩ := ofBytes_eq_ok_iff.mp given
    exact ⟨Versions.contains_traverse keys ring.current ▸ ring.held, keys, rfl⟩

/-! ## Why there is no ring -/

/--
How the attempt to make a ring of byte strings can end.  The current version is missed
first; of several byte strings that are no keys any may be named.
-/
inductive Ends {α : Type} (bytes : Versions Bytes) (current : KeyVersion) :
    Except Fault α → Prop where
  | absent
    (missed : bytes.contains current = false) :
    Ends bytes current (.error (.currentKeyNotFound current))
  | unsized
    {version : KeyVersion}
    {value : Bytes}
    (held : bytes.contains current = true)
    (found : bytes.find? version = some value)
    (size : value.length ≠ 32) :
    Ends bytes current (.error (.keyLength value.length))
  | made
    {result : α}
    (held : bytes.contains current = true)
    (sized : ∀ version value, bytes.find? version = some value → value.length = 32) :
    Ends bytes current (.ok result)

namespace Ends

variable
  {α β : Type}
  {outcome : Except Fault α}

theorem eq_absent_iff
    (ends : Ends bytes current outcome)
    (version : KeyVersion) :
    outcome = .error (.currentKeyNotFound version) ↔
      version = current ∧ bytes.contains current = false := by
  cases ends with
  | absent missed => simp [missed, eq_comm]
  | unsized held => simp [held]
  | made held => simp [held]

theorem exists_eq_unsized_iff
    (ends : Ends bytes current outcome) :
    (∃ actual, outcome = .error (.keyLength actual)) ↔
      bytes.contains current = true ∧
        ∃ version value, bytes.find? version = some value ∧ value.length ≠ 32 := by
  cases ends with
  | absent missed => simp [missed]
  | unsized held found size => simpa [held] using ⟨_, _, found, size⟩
  | made held sized =>
      simp only [reduceCtorEq, exists_false, held, true_and, false_iff, not_exists, not_and,
        not_not]
      exact sized

theorem exists_eq_made_iff
    (ends : Ends bytes current outcome) :
    (∃ result, outcome = .ok result) ↔
      bytes.contains current = true ∧
        ∀ version value, bytes.find? version = some value → value.length = 32 := by
  cases ends with
  | absent missed => simp [missed]
  | unsized held found size =>
      simp only [reduceCtorEq, exists_false, false_iff]
      exact fun both => size (both.2 _ _ found)
  | made held sized => exact ⟨fun _ => ⟨held, sized⟩, fun _ => ⟨_, rfl⟩⟩

/-- It ends as what is made further of the result. -/
theorem of_map
    {make : α → β}
    (ends : Ends bytes current (outcome.map make)) :
    Ends bytes current outcome := by
  cases outcome with
  | error fault => cases ends <;> constructor <;> assumption
  | ok result =>
      cases ends with
      | made held sized => exact .made held sized

end Ends

theorem unsized_of_gather
    {fault : Fault}
    (visited : met.Perm bytes.entries)
    (failed : Versions.gather Key.ofBytes met = .error fault) :
    ∃ version value, bytes.find? version = some value ∧ value.length ≠ 32 ∧
      fault = .keyLength value.length := by
  obtain ⟨entry, member, refused⟩ := Versions.exists_of_gather_eq_error failed
  exact ⟨_, _, (Versions.mem_iff_find? visited entry).mp member,
    Key.ofBytes_eq_error_iff.mp refused⟩

theorem sized_of_gather
    {keys : Versions Key}
    (visited : met.Perm bytes.entries)
    (done : Versions.gather Key.ofBytes met = .ok keys)
    (version : KeyVersion)
    (value : Bytes)
    (found : bytes.find? version = some value) :
    value.length = 32 := by
  have member := (Versions.mem_iff_find? visited (version, value)).mpr found
  exact Key.exists_ofBytes_eq_ok_iff.mp
    (Versions.exists_gather_eq_ok_iff.mp ⟨keys, done⟩ _ member)

theorem ends_gathered
    (visited : met.Perm bytes.entries) :
    Ends bytes current (gathered met current) := by
  rw [gathered]
  split
  · next asked =>
      have held := (Versions.mem_iff_contains visited).mp asked
      cases done : Versions.gather Key.ofBytes met with
      | error fault =>
          obtain ⟨version, value, found, size, rfl⟩ := unsized_of_gather visited done
          exact .unsized held found size
      | ok keys => exact .made held (sized_of_gather visited done)
  · next missed =>
      have unheld := mt (Versions.mem_iff_contains visited).mpr missed
      exact .absent (Bool.eq_false_iff.mpr unheld)

theorem ends_ofBytes :
    Ends bytes current (ofBytes bytes current) :=
  .of_map (map_parts_ofBytes ▸ ends_gathered (.refl _))

/--
Byte strings that are made keys first are refused for their size even if the current version
is missing too.
-/
theorem exists_converted_eq_unsized_iff
    (visited : met.Perm bytes.entries) :
    (∃ actual, converted met current = .error (.keyLength actual)) ↔
      ∃ version value, bytes.find? version = some value ∧ value.length ≠ 32 := by
  rw [converted]
  cases done : Versions.gather Key.ofBytes met with
  | error fault =>
      obtain ⟨version, value, found, size, rfl⟩ := unsized_of_gather visited done
      exact ⟨fun _ => ⟨version, value, found, size⟩, fun _ => ⟨_, rfl⟩⟩
  | ok keys =>
      constructor
      · rintro ⟨actual, refused⟩
        change ofKeys keys current = .error (.keyLength actual) at refused
        rw [ofKeys] at refused
        split at refused <;> cases refused
      · rintro ⟨version, value, found, size⟩
        exact (size (sized_of_gather visited done version value found)).elim

/-! ## What a ring answers -/

/--
The current version with its key as they are looked up where nothing is known of the parts.
-/
def lookUpCurrent (made : Versions Key × KeyVersion) : Except Fault (KeyVersion × Key) :=
  match made.1.find? made.2 with
  | some key => .ok (made.2, key)
  | none => .error (.currentKeyNotFound made.2)

/-- The answers of a ring fit together, and the current key is among them. -/
structure Consistent (ring : KeyRing) : Prop where
  /-- Whoever looks the current key up finds it. -/
  current : lookUpCurrent ring.parts = .ok (ring.current, ring.currentKey)
  get_current : ring.get ring.current = .ok ring.currentKey
  ascending : ring.versions.Pairwise (· < ·)
  /-- In whatever order the versions are met, the list of them is what sorting makes. -/
  sorted : ∀ met : List KeyVersion, met.Perm ring.versions → Id.sorted met = ring.versions
  contains_iff : ∀ version, ring.contains version = true ↔ version ∈ ring.versions
  get_iff : ∀ version, (∃ key, ring.get version = .ok key) ↔ version ∈ ring.versions
  get_other : ∀ version ∉ ring.versions, ring.get version = .error (.keyNotFound version)
  size : ring.size = ring.versions.length
  filled : ring.isEmpty = false

theorem get_eq (ring : KeyRing) (version : KeyVersion) :
    ring.get version =
      (ring.keys.find? version).elim (.error (.keyNotFound version)) .ok := by
  rw [get]
  cases ring.keys.find? version <;> rfl

theorem consistent (ring : KeyRing) : ring.Consistent where
  current := by
    obtain ⟨key, found⟩ := Option.isSome_iff_exists.mp ring.held
    simp [lookUpCurrent, parts, currentKey, found]
  get_current := ring.get_current
  ascending := ring.keys.keys_ascending
  sorted _ visited := Id.sorted_eq_of_perm ring.keys.keys_ascending visited
  contains_iff _ := Versions.contains_iff
  get_iff version := by
    rw [versions, ← Versions.contains_iff, Versions.contains, get_eq]
    cases ring.keys.find? version <;> simp
  get_other version other := by
    rw [versions, ← Versions.contains_iff, Versions.contains, Bool.not_eq_true,
      Option.isSome_eq_false_iff, Option.isNone_iff_eq_none] at other
    rw [get_eq, other]
    rfl
  size := (List.length_map _).symm
  filled := by
    have member : ring.current ∈ ring.versions := Versions.contains_iff.mp ring.held
    have length := List.length_pos_of_mem member
    rw [isEmpty, size, Versions.size]
    rw [versions, Versions.keys, List.length_map] at length
    simpa using Nat.pos_iff_ne_zero.mp length

/-- A ring of byte strings answers with their keys. -/
theorem get_of_ofBytes
    (given : ofBytes bytes current = .ok ring)
    (version : KeyVersion) :
    ring.get version =
      (bytes.find? version).elim (.error (.keyNotFound version)) Key.ofBytes := by
  obtain ⟨made, -⟩ := ofBytes_eq_ok_iff.mp given
  have together := Versions.contains_traverse made version
  rw [Versions.contains, Versions.contains] at together
  rw [get_eq]
  cases held : ring.keys.find? version with
  | none =>
      have missing : bytes.find? version = none := by
        rw [held] at together
        simpa using together
      rw [missing]
      rfl
  | some key =>
      obtain ⟨value, stands, converts⟩ := (Versions.find?_traverse made key).mp held
      rw [stands]
      exact converts.symm

/-! ## The main statement -/

/--
Byte strings make the same ring whether they are handed over as they are or made keys first,
and in whatever order they are met; what is gathered of them are the parts of that ring,
although it is not asked for the current version again.  No ring is made if the current
version is missing, and otherwise if a byte string has not the size of a key; only where keys
are made first is the size looked at before.  A ring that is made has the current version
and the keys that were given, and no others; and every ring finds its current key, lists its
versions in ascending order and knows exactly these.
-/
theorem rings_of_bytes_and_of_keys_are_the_same
    {bytes : Versions Bytes}
    {met others : List (KeyVersion × Bytes)}
    (visited : met.Perm bytes.entries)
    (revisited : others.Perm bytes.entries)
    (current : KeyVersion) :
    (∀ ring, ofBytes bytes current = .ok ring ↔ converted others current = .ok ring) ∧
    (∀ made, gathered met current = .ok made ↔
      ∃ ring, ofBytes bytes current = .ok ring ∧ ring.parts = made) ∧
    (∀ version, ofBytes bytes current = .error (.currentKeyNotFound version) ↔
      version = current ∧ bytes.contains current = false) ∧
    ((∃ actual, ofBytes bytes current = .error (.keyLength actual)) ↔
      bytes.contains current = true ∧
        ∃ version value, bytes.find? version = some value ∧ value.length ≠ 32) ∧
    ((∃ ring, ofBytes bytes current = .ok ring) ↔
      bytes.contains current = true ∧
        ∀ version value, bytes.find? version = some value → value.length = 32) ∧
    Ends bytes current (gathered met current) ∧
    ((∃ actual, converted others current = .error (.keyLength actual)) ↔
      ∃ version value, bytes.find? version = some value ∧ value.length ≠ 32) ∧
    (∀ ring, ofBytes bytes current = .ok ring →
      ring.current = current ∧ ring.versions = bytes.keys ∧
      ∀ version, ring.get version =
        (bytes.find? version).elim (.error (.keyNotFound version)) Key.ofBytes) ∧
    ∀ ring : KeyRing, ring.Consistent := by
  have ends : Ends bytes current (ofBytes bytes current) := ends_ofBytes
  refine ⟨fun ring => (converted_eq_ok_iff revisited).symm, fun made => gathered_eq_ok_iff visited,
    ends.eq_absent_iff, ends.exists_eq_unsized_iff, ends.exists_eq_made_iff,
    ends_gathered visited, exists_converted_eq_unsized_iff revisited, fun ring given => ?_,
    consistent⟩
  obtain ⟨made, rfl⟩ := ofBytes_eq_ok_iff.mp given
  exact ⟨rfl, Versions.keys_traverse made, get_of_ofBytes given⟩

/-- Two keys make a ring also if the one with the greater version is met first. -/
theorem two_keys_make_a_ring_in_either_order :
    let older : KeyVersion := ⟨.ofRandom [1]⟩
    let newer : KeyVersion := ⟨.ofRandom [2]⟩
    let bytes := Versions.ofList [(newer, List.replicate 32 2), (older, List.replicate 32 1)]
    let met := [(newer, List.replicate 32 2), (older, List.replicate 32 1)]
    met.Perm bytes.entries ∧
      ∃ ring, ofBytes bytes newer = .ok ring ∧ converted met newer = .ok ring ∧
        gathered met newer = .ok ring.parts ∧ ring.versions = [older, newer] ∧
        ring.get older = Key.ofBytes (List.replicate 32 1) ∧ ring.Consistent := by
  intro older newer bytes met
  have visited : met.Perm bytes.entries := .swap ..
  obtain ⟨same, parts, -, -, -, -, -, holds, consistent⟩ :=
    rings_of_bytes_and_of_keys_are_the_same visited visited newer
  have given : ofBytes bytes newer = .ok _ := rfl
  obtain ⟨-, listed, answers⟩ := holds _ given
  exact ⟨visited, _, given, (same _).mp given, (parts _).mpr ⟨_, given, rfl⟩, listed,
    answers older, consistent _⟩

end KeyRing

end SealedDirectory
