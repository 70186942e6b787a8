import SealedDirectory.Proofs.Key.Sealing
import SealedDirectory.Proofs.Key.Stored

/-!
# Rotation

A key file is rotated, stored and loaded again, any number of times and in any order.
As long as the versions that are drawn are new, no key is lost or changed on the way:
every text that was sealed under the current key at some point of the history is opened
at every later point.

How versions are drawn is left open; that they are new is assumed.
-/

namespace SealedDirectory

/-! ## Maps by versions -/

namespace Versions

variable
  {α β ε : Type}
  {versions : Versions α}
  {version other : KeyVersion}

theorem find?_insertEntry_self
    (version : KeyVersion)
    (value : α)
    (entries : List (KeyVersion × α)) :
    (insertEntry version value entries).find? (fun entry => entry.1 = version) =
      some (version, value) := by
  induction entries with
  | nil => simp [insertEntry]
  | cons entry entries ih =>
      rw [insertEntry]
      split
      · simp
      split
      · simp
      · next different =>
          rw [List.find?_cons_of_neg (by simpa using Ne.symm different), ih]

theorem find?_insertEntry_of_ne
    (different : other ≠ version)
    (value : α)
    (entries : List (KeyVersion × α)) :
    (insertEntry version value entries).find? (fun entry => entry.1 = other) =
      entries.find? fun entry => entry.1 = other := by
  have passed (held : α) (rest : List (KeyVersion × α)) :
      ((version, held) :: rest).find? (fun entry => entry.1 = other) =
        rest.find? fun entry => entry.1 = other :=
    List.find?_cons_of_neg (by simpa using Ne.symm different)
  induction entries with
  | nil => rw [insertEntry, passed]
  | cons entry entries ih =>
      obtain ⟨before, held⟩ := entry
      rw [insertEntry]
      split
      · rw [passed]
      split
      · next same =>
          subst same
          rw [passed, passed]
      · rw [List.find?_cons, List.find?_cons, ih]

theorem find?_insert_self
    (versions : Versions α)
    (version : KeyVersion)
    (value : α) :
    (versions.insert version value).find? version = some value := by
  rw [find?, insert, find?_insertEntry_self]
  rfl

theorem find?_insert_of_ne
    (different : other ≠ version)
    (value : α)
    (versions : Versions α) :
    (versions.insert version value).find? other = versions.find? other := by
  rw [find?, insert, find?_insertEntry_of_ne different]
  rfl

theorem contains_insert_self
    (versions : Versions α)
    (version : KeyVersion)
    (value : α) :
    (versions.insert version value).contains version = true := by
  rw [contains, find?_insert_self]
  rfl

theorem contains_iff :
    versions.contains version = true ↔ version ∈ versions.keys := by
  simp [contains, find?, keys]

/-- An entry with a new version is added to the others. -/
theorem insertEntry_perm
    {entries : List (KeyVersion × α)}
    (value : α)
    (fresh : version ∉ entries.map (·.1)) :
    (insertEntry version value entries).Perm ((version, value) :: entries) := by
  induction entries with
  | nil => exact .refl _
  | cons entry entries ih =>
      rw [List.map_cons, List.mem_cons, not_or] at fresh
      rw [insertEntry]
      split
      · exact .refl _
      · rw [if_neg fresh.1]
        exact ((ih fresh.2).cons _).trans (.swap ..)

/-- A new version is added to the others. -/
theorem keys_insert
    (value : α)
    (fresh : version ∉ versions.keys) :
    (versions.insert version value).keys.Perm (version :: versions.keys) :=
  (insertEntry_perm value fresh).map _

theorem traverse_eq_ok_iff
    {f : α → Except ε β}
    {images : Versions β} :
    versions.traverse f = .ok images ↔ mapEntries f versions.entries = .ok images.entries := by
  rw [traverse]
  constructor
  · intro given
    split at given
    · next done =>
        cases given
        exact done
    · cases given
  · intro done
    split
    · next entries same =>
        rw [done] at same
        cases same
        rfl
    · next fault same =>
        rw [done] at same
        cases same

theorem keys_traverse
    {f : α → Except ε β}
    {images : Versions β}
    (done : versions.traverse f = .ok images) :
    images.keys = versions.keys :=
  mapEntries_keys (traverse_eq_ok_iff.mp done)

theorem mapEntries_cons_eq_ok_iff
    {f : α → Except ε β}
    {value : α}
    {entries : List (KeyVersion × α)}
    {images : List (KeyVersion × β)} :
    mapEntries f ((version, value) :: entries) = .ok images ↔
      ∃ image others, f value = .ok image ∧ mapEntries f entries = .ok others ∧
        images = (version, image) :: others := by
  rw [mapEntries]
  cases f value with
  | error fault => simp [bind, Except.bind]
  | ok image =>
      cases mapEntries f entries with
      | error fault => simp [bind, Except.bind]
      | ok others => simp [bind, Except.bind, pure, Except.pure, eq_comm]

theorem mapEntries_insertEntry
    {f : α → Except ε β}
    {value : α}
    {image : β}
    {entries : List (KeyVersion × α)}
    {images : List (KeyVersion × β)}
    (mapped : f value = .ok image)
    (done : mapEntries f entries = .ok images) :
    mapEntries f (insertEntry version value entries) =
      .ok (insertEntry version image images) := by
  induction entries generalizing images with
  | nil =>
      cases done
      exact mapEntries_cons_eq_ok_iff.mpr ⟨image, [], mapped, rfl, rfl⟩
  | cons entry entries ih =>
      obtain ⟨before, held⟩ := entry
      obtain ⟨first, others, read, rest, rfl⟩ := mapEntries_cons_eq_ok_iff.mp done
      simp only [insertEntry]
      split
      · exact mapEntries_cons_eq_ok_iff.mpr ⟨image, _, mapped, done, rfl⟩
      split
      · exact mapEntries_cons_eq_ok_iff.mpr ⟨image, _, mapped, rest, rfl⟩
      · exact mapEntries_cons_eq_ok_iff.mpr ⟨first, _, read, ih rest, rfl⟩

/-- A map with one more entry is mapped as that entry and the others are. -/
theorem traverse_insert
    {f : α → Except ε β}
    {value : α}
    {image : β}
    {images : Versions β}
    (mapped : f value = .ok image)
    (done : versions.traverse f = .ok images) :
    (versions.insert version value).traverse f = .ok (images.insert version image) :=
  traverse_eq_ok_iff.mpr (mapEntries_insertEntry mapped (traverse_eq_ok_iff.mp done))

end Versions

/-! ## Rings -/

namespace KeyRing

/-- A ring of keys has these and the version that is given as the current one. -/
theorem ofKeys_eq_ok_iff
    {keys : Versions Key}
    {current : KeyVersion}
    {ring : KeyRing} :
    ofKeys keys current = .ok ring ↔ keys = ring.keys ∧ current = ring.current := by
  rw [ofKeys]
  constructor
  · intro given
    split at given
    · cases given
      exact ⟨rfl, rfl⟩
    · cases given
  · rintro ⟨rfl, rfl⟩
    exact dif_pos ring.held

/-- The ring with one more key, which is the current one. -/
def rotated
    (ring : KeyRing)
    (version : KeyVersion)
    (key : Key) :
    KeyRing :=
  ⟨ring.keys.insert version key, version, ring.keys.contains_insert_self version key⟩

/-- A later ring has the keys of an earlier one and, under added versions, further ones. -/
structure Keeps
    (earlier later : KeyRing)
    (added : List KeyVersion) :
    Prop where
  current : later.current = added.getLast?.getD earlier.current
  keys : ∀ version ∈ earlier.versions, ∃ key,
    earlier.get version = .ok key ∧ later.get version = .ok key
  versions : later.versions.Perm (earlier.versions ++ added)

namespace Keeps

variable
  {first second third : KeyRing}
  {added more : List KeyVersion}

theorem refl (ring : KeyRing) :
    ring.Keeps ring [] where
  current := rfl
  keys := by
    intro version member
    obtain ⟨key, found⟩ := Option.isSome_iff_exists.mp (Versions.contains_iff.mpr member)
    exact ⟨key, by rw [get, found], by rw [get, found]⟩
  versions := by rw [List.append_nil]

theorem rotated
    {version : KeyVersion}
    (ring : KeyRing)
    (key : Key)
    (fresh : version ∉ ring.versions) :
    ring.Keeps (ring.rotated version key) [version] where
  current := rfl
  keys := by
    intro other member
    have different : other ≠ version := fun same => fresh (same ▸ member)
    obtain ⟨key, found, -⟩ := (refl ring).keys other member
    refine ⟨key, found, ?_⟩
    rw [get] at found ⊢
    rw [KeyRing.rotated, Versions.find?_insert_of_ne different]
    exact found
  versions := (Versions.keys_insert key fresh).trans (List.perm_append_singleton ..).symm

theorem trans
    (begins : first.Keeps second added)
    (ends : second.Keeps third more) :
    first.Keeps third (added ++ more) where
  current := by
    rw [ends.current, begins.current, List.getLast?_append]
    cases more.getLast? <;> rfl
  keys := by
    intro version member
    obtain ⟨key, held, kept⟩ := begins.keys version member
    have stays : version ∈ second.versions :=
      begins.versions.mem_iff.mpr (List.mem_append_left _ member)
    obtain ⟨same, found, final⟩ := ends.keys version stays
    rw [kept] at found
    cases found
    exact ⟨key, held, final⟩
  versions := by
    rw [← List.append_assoc]
    exact ends.versions.trans (begins.versions.append_right _)

/-- What was sealed under the current key of the earlier ring is opened with the later one. -/
theorem opens
    (kept : first.Keeps second added)
    (nonce : Nonce)
    (text : String) :
    (SealedField.enclose first.currentKey first.current nonce text).opened second = .ok text := by
  have member : first.current ∈ first.versions :=
    Versions.contains_iff.mp first.held
  obtain ⟨key, found, later⟩ := kept.keys first.current member
  rw [first.get_current] at found
  cases found
  rw [SealedField.opened, SealedField.enclose, later]
  exact Envelope.opened_enclose first.currentKey nonce text

end Keeps

end KeyRing

/-! ## Key files -/

namespace KeyFile

/-- The ring of a file has its keys, decoded, and its current version. -/
theorem ring_eq_ok_iff
    {file : KeyFile}
    {ring : KeyRing} :
    file.ring = .ok ring ↔
      file.keys.traverse Key.ofBase64 = .ok ring.keys ∧ file.current = ring.current := by
  rw [KeyFile.ring]
  constructor
  · intro given
    cases read : file.keys.traverse Key.ofBase64 with
    | error fault =>
        rw [read] at given
        cases given
    | ok keys =>
        rw [read] at given
        obtain ⟨rfl, current⟩ := KeyRing.ofKeys_eq_ok_iff.mp given
        exact ⟨rfl, current⟩
  · rintro ⟨read, current⟩
    rw [read]
    exact KeyRing.ofKeys_eq_ok_iff.mpr ⟨rfl, current⟩

theorem keys_of_ring
    {file : KeyFile}
    {ring : KeyRing}
    (given : file.ring = .ok ring) :
    ring.versions = file.keys.keys :=
  Versions.keys_traverse (ring_eq_ok_iff.mp given).1

theorem ring_rotate
    {file : KeyFile}
    {ring : KeyRing}
    (given : file.ring = .ok ring)
    (version : KeyVersion)
    (key : Key) :
    (file.rotate version key).ring = .ok (ring.rotated version key) := by
  obtain ⟨read, -⟩ := ring_eq_ok_iff.mp given
  exact ring_eq_ok_iff.mpr ⟨Versions.traverse_insert key.ofBase64_toBase64 read, rfl⟩

/-- A new key file has the ring of its only key. -/
theorem ring_fresh
    (version : KeyVersion)
    (key : Key) :
    (fresh version key).ring =
      .ok ⟨Versions.empty.insert version key, version,
        Versions.empty.contains_insert_self version key⟩ := by
  have nothing : (Versions.empty : Versions String).traverse Key.ofBase64 = .ok .empty :=
    Versions.traverse_eq_ok_iff.mpr rfl
  exact ring_eq_ok_iff.mpr ⟨Versions.traverse_insert key.ofBase64_toBase64 nothing, rfl⟩

/-! ## Histories -/

/-- What happens to a key file. -/
inductive Turn where
  | rotated (version : KeyVersion) (key : Key)
  | reloaded

/-- The version that is drawn, if one is. -/
def Turn.drawn? : Turn → Option KeyVersion
  | .rotated version _ => some version
  | .reloaded => none

/-- The versions that are drawn one after the other. -/
def drawn (turns : List Turn) : List KeyVersion :=
  turns.filterMap Turn.drawn?

/-- A file after one turn.  To reload it is to read what it is stored as. -/
def turned (file : KeyFile) : Turn → Except Fault KeyFile
  | .rotated version key => .ok (file.rotate version key)
  | .reloaded => parse file.text

def after
    (file : KeyFile)
    (turns : List Turn) :
    Except Fault KeyFile :=
  turns.foldlM turned file

variable
  {file : KeyFile}
  {ring : KeyRing}

/-- After one turn the file has a ring, which keeps what the one before it had. -/
theorem turned_keeps
    (given : file.ring = .ok ring)
    (turn : Turn)
    (fresh : ∀ version ∈ turn.drawn?, version ∉ ring.versions) :
    ∃ next later, file.turned turn = .ok next ∧ next.ring = .ok later ∧
      ring.Keeps later turn.drawn?.toList := by
  cases turn with
  | rotated version key =>
      exact ⟨_, _, rfl, ring_rotate given version key, .rotated ring key (fresh version rfl)⟩
  | reloaded => exact ⟨file, ring, file.parse_text, given, .refl ring⟩

/-- So it is after any number of turns. -/
theorem after_keeps
    (given : file.ring = .ok ring)
    (turns : List Turn)
    (fresh : (ring.versions ++ drawn turns).Nodup) :
    ∃ last later, file.after turns = .ok last ∧ last.ring = .ok later ∧
      ring.Keeps later (drawn turns) := by
  induction turns generalizing file ring with
  | nil => exact ⟨file, ring, rfl, given, .refl ring⟩
  | cons turn turns ih =>
      have split : drawn (turn :: turns) = turn.drawn?.toList ++ drawn turns := by
        rw [drawn, List.filterMap_cons]
        cases turn.drawn? <;> rfl
      rw [split, ← List.append_assoc] at fresh
      have unused : ∀ version ∈ turn.drawn?, version ∉ ring.versions := by
        intro version member held
        have parts := List.nodup_append.mp (List.nodup_append.mp fresh).1
        exact parts.2.2 version held version (Option.mem_toList.mpr member) rfl
      obtain ⟨next, between, ranTurn, decoded, begins⟩ := turned_keeps given turn unused
      have still : (between.versions ++ drawn turns).Nodup :=
        ((begins.versions.append_right _).nodup_iff).mpr fresh
      obtain ⟨last, later, ran, final, ends⟩ := ih decoded still
      refine ⟨last, later, ?_, final, split ▸ begins.trans ends⟩
      rw [after, List.foldlM_cons, ranTurn]
      exact ran

theorem after_append
    (file : KeyFile)
    (past later : List Turn) :
    file.after (past ++ later) = (file.after past).bind (·.after later) :=
  List.foldlM_append

/--
Rotation strands no data.  A key file that has a ring goes through a history of rotations
to new versions and of reloading; then there is a ring at every point of it.  The ring at
the end has the version of the last rotation as its current one.  It has the key of every
version of every earlier ring and no further versions but those that were drawn since, and
opens what was sealed under the current key of any earlier ring.
-/
theorem rotation_strands_no_data
    {past later : List Turn}
    (given : file.ring = .ok ring)
    (fresh : (file.keys.keys ++ drawn (past ++ later)).Nodup) :
    ∃ between last earlier final,
      file.after past = .ok between ∧ between.ring = .ok earlier ∧
      file.after (past ++ later) = .ok last ∧ last.ring = .ok final ∧
      final.current = (drawn (past ++ later)).getLast?.getD ring.current ∧
      (∀ version ∈ earlier.versions, ∃ key,
        earlier.get version = .ok key ∧ final.get version = .ok key) ∧
      final.versions.Perm (earlier.versions ++ drawn later) ∧
      ∀ nonce text,
        (SealedField.enclose earlier.currentKey earlier.current nonce text).opened final =
          .ok text := by
  have parts : drawn (past ++ later) = drawn past ++ drawn later := List.filterMap_append
  rw [← keys_of_ring given, parts, ← List.append_assoc] at fresh
  obtain ⟨between, earlier, ranPast, decoded, begins⟩ :=
    after_keeps given past (List.nodup_append.mp fresh).1
  have still : (earlier.versions ++ drawn later).Nodup :=
    ((begins.versions.append_right _).nodup_iff).mpr fresh
  obtain ⟨last, final, ranLater, decodedLast, ends⟩ := after_keeps decoded later still
  have whole := begins.trans ends
  rw [← parts] at whole
  refine ⟨between, last, earlier, final, ranPast, decoded, ?_, decodedLast, whole.current,
    ends.keys, ends.versions, ends.opens⟩
  rw [after_append, ranPast]
  exact ranLater

/-- A new key file is rotated twice and reloaded in between. -/
theorem first_key_survives_two_rotations :
    let file := KeyFile.fresh ⟨.ofRandom [1]⟩ (.ofRandom [1])
    let past : List Turn := [.reloaded, .rotated ⟨.ofRandom [2]⟩ (.ofRandom [2])]
    let later : List Turn := [.reloaded, .rotated ⟨.ofRandom [3]⟩ (.ofRandom [3]), .reloaded]
    (file.keys.keys ++ drawn (past ++ later)).Nodup ∧
      ∃ ring, file.ring = .ok ring ∧
        ∃ between last earlier final,
          file.after past = .ok between ∧ between.ring = .ok earlier ∧
          file.after (past ++ later) = .ok last ∧ last.ring = .ok final ∧
          final.current = ⟨.ofRandom [3]⟩ ∧
          (∀ version ∈ earlier.versions, ∃ key,
            earlier.get version = .ok key ∧ final.get version = .ok key) ∧
          final.versions.Perm (earlier.versions ++ [⟨.ofRandom [3]⟩]) ∧
          ∀ nonce text,
            (SealedField.enclose earlier.currentKey earlier.current nonce text).opened final =
              .ok text := by
  have distinct : ([⟨.ofRandom [1]⟩, ⟨.ofRandom [2]⟩, ⟨.ofRandom [3]⟩] :
      List KeyVersion).Nodup := by
    decide
  exact ⟨distinct, _, ring_fresh _ _, rotation_strands_no_data (ring_fresh _ _) distinct⟩

end KeyFile

end SealedDirectory
