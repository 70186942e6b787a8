import SealedDirectory.Ident.Id

/-!
# Values by key version

A finite map from key versions to values, kept in the order of the versions.  Putting
a value under a version replaces the one that is there.
-/

namespace SealedDirectory

structure Versions (α : Type) where
  entries : List (KeyVersion × α)
  ascending : entries.Pairwise fun left right => left.1 < right.1

namespace Versions

variable {α β : Type}

instance [DecidableEq α] : DecidableEq (Versions α) := fun left right =>
  if same : left.entries = right.entries then
    .isTrue (by cases left; cases right; simpa using same)
  else .isFalse fun equal => same (by rw [equal])

def empty : Versions α :=
  ⟨[], .nil⟩

/-- Puts an entry at its place among ordered ones. -/
def insertEntry (version : KeyVersion) (value : α) :
    List (KeyVersion × α) → List (KeyVersion × α)
  | [] => [(version, value)]
  | (other, held) :: rest =>
      if version < other then (version, value) :: (other, held) :: rest
      else if version = other then (version, value) :: rest
      else (other, held) :: insertEntry version value rest

theorem mem_insertEntry {version : KeyVersion} {value : α} {entry : KeyVersion × α}
    {entries : List (KeyVersion × α)} (member : entry ∈ insertEntry version value entries) :
    entry = (version, value) ∨ entry ∈ entries := by
  induction entries with
  | nil => simpa [insertEntry] using member
  | cons head rest ih =>
      unfold insertEntry at member
      split at member
      · simpa using member
      · split at member
        · rcases List.mem_cons.1 member with same | inRest
          · exact .inl same
          · exact .inr (List.mem_cons_of_mem _ inRest)
        · rcases List.mem_cons.1 member with same | inRest
          · exact .inr (by simp [same])
          · rcases ih inRest with same | old
            · exact .inl same
            · exact .inr (List.mem_cons_of_mem _ old)

theorem ascending_insertEntry {version : KeyVersion} {value : α}
    {entries : List (KeyVersion × α)}
    (ascending : entries.Pairwise fun left right => left.1 < right.1) :
    (insertEntry version value entries).Pairwise fun left right => left.1 < right.1 := by
  induction entries with
  | nil => simp [insertEntry]
  | cons head rest ih =>
      obtain ⟨below, ordered⟩ := List.pairwise_cons.1 ascending
      unfold insertEntry
      split
      · next before =>
          refine List.pairwise_cons.2 ⟨?_, ascending⟩
          intro entry member
          rcases List.mem_cons.1 member with rfl | inRest
          · exact before
          · exact Id.lt_trans before (below entry inRest)
      · next notBelow =>
          split
          · next same =>
              subst same
              exact List.pairwise_cons.2 ⟨below, ordered⟩
          · next different =>
              refine List.pairwise_cons.2 ⟨?_, ih ordered⟩
              intro entry member
              rcases mem_insertEntry member with rfl | old
              · exact Id.lt_of_not_lt_of_ne notBelow different
              · exact below entry old

/-- The map with a value put under a version. -/
def insert (version : KeyVersion) (value : α) (versions : Versions α) : Versions α :=
  ⟨insertEntry version value versions.entries, ascending_insertEntry versions.ascending⟩

/-- The map of associations, the later ones replacing the earlier ones. -/
def ofList (entries : List (KeyVersion × α)) : Versions α :=
  entries.foldl (fun versions entry => versions.insert entry.1 entry.2) empty

def find? (versions : Versions α) (version : KeyVersion) : Option α :=
  (versions.entries.find? fun entry => entry.1 = version).map (·.2)

/-- Whether there is a value under a version. -/
def contains (versions : Versions α) (version : KeyVersion) : Bool :=
  (versions.find? version).isSome

def keys (versions : Versions α) : List KeyVersion :=
  versions.entries.map (·.1)

def size (versions : Versions α) : Nat :=
  versions.entries.length

def erase (versions : Versions α) (version : KeyVersion) : Versions α :=
  ⟨versions.entries.filter fun entry => entry.1 ≠ version, versions.ascending.filter _⟩

theorem keys_ascending (versions : Versions α) :
    versions.keys.Pairwise fun left right => left < right :=
  List.pairwise_map.2 versions.ascending

/-- Applies a function to every value and keeps the versions. -/
def mapEntries {ε : Type} (f : α → Except ε β) :
    List (KeyVersion × α) → Except ε (List (KeyVersion × β))
  | [] => .ok []
  | (version, value) :: rest => do
      let image ← f value
      let images ← mapEntries f rest
      return (version, image) :: images

theorem mapEntries_keys {ε : Type} {f : α → Except ε β} {entries : List (KeyVersion × α)}
    {images : List (KeyVersion × β)} (done : mapEntries f entries = .ok images) :
    images.map (·.1) = entries.map (·.1) := by
  induction entries generalizing images with
  | nil => cases done; rfl
  | cons head rest ih =>
      obtain ⟨version, value⟩ := head
      simp only [mapEntries, bind, Except.bind, pure, Except.pure] at done
      split at done
      · cases done
      · split at done
        · cases done
        · next restDone =>
            cases done
            simp [ih restDone]

/-- Applies a function to every value in the order of the versions; the first failure counts. -/
def traverse {ε : Type} (f : α → Except ε β) (versions : Versions α) :
    Except ε (Versions β) :=
  match done : mapEntries f versions.entries with
  | .ok images => .ok ⟨images, by
      rw [← List.pairwise_map (f := fun entry : KeyVersion × β => entry.1)
          (R := fun left right => left < right), mapEntries_keys done]
      exact versions.keys_ascending⟩
  | .error fault => .error fault

end Versions

end SealedDirectory
