import Mathlib.Data.List.Nodup
import Mathlib.Data.List.Sort
import SealedDirectory.Proofs.Key.Rotation
import SealedDirectory.Proofs.Key.Stored

/-!
# Maps that are gathered in any order

Whoever goes through a map without an order meets its entries one after the other in some
order.  The values are converted and put into another map as they are met, and the
versions are sorted in the end.

This file proves that nothing depends on the order in which the entries are met: the map
that comes of it and the list of versions are those of the map in the order of the
versions.  Only which one is named of several values that cannot be converted is left to
the order.
-/

namespace SealedDirectory

/-! ## Sorting identifiers -/

namespace Id

variable {kind : IdKind} {first second third : Id kind}

theorem lt_asymm (before : first < second) : ¬ second < first :=
  fun after => lt_irrefl first (lt_trans before after)

theorem eq_of_not_lt
    (notBelow : ¬ first < second)
    (notAbove : ¬ second < first) :
    first = second := by
  by_contra different
  exact notAbove (lt_of_not_lt_of_ne notBelow different)

theorem not_lt_trans
    (begins : ¬ second < first)
    (ends : ¬ third < second) :
    ¬ third < first := by
  intro below
  by_cases same : first = second
  · exact ends (same ▸ below)
  · exact ends (lt_trans below (lt_of_not_lt_of_ne begins (Ne.symm same)))

/-- Identifiers in ascending order. -/
def sorted (ids : List (Id kind)) : List (Id kind) :=
  ids.mergeSort fun left right => !decide (right < left)

/-- Ascending identifiers are what sorting makes of them, in whatever order they are met. -/
theorem sorted_eq_of_perm
    {met ids : List (Id kind)}
    (ascending : ids.Pairwise (· < ·))
    (visited : met.Perm ids) :
    sorted met = ids := by
  have ordered : (sorted met).Pairwise fun left right => (!decide (right < left)) = true := by
    refine List.pairwise_mergeSort ?_ ?_ met
    · intro first second third begins ends
      simp only [Bool.not_eq_true', decide_eq_false_iff_not] at begins ends ⊢
      exact not_lt_trans begins ends
    · intro left right
      simp only [Bool.or_eq_true, Bool.not_eq_true', decide_eq_false_iff_not]
      exact not_and_or.mp fun both => lt_asymm both.1 both.2
  have expected : ids.Pairwise fun left right => (!decide (right < left)) = true :=
    ascending.imp fun before => by simpa using lt_asymm before
  refine List.Perm.eq_of_pairwise ?_ ordered expected ((List.mergeSort_perm ..).trans visited)
  intro left right _ _ notBelow notAbove
  simp only [Bool.not_eq_true', decide_eq_false_iff_not] at notBelow notAbove
  exact eq_of_not_lt notAbove notBelow

end Id

/-! ## Maps by versions -/

namespace Versions

variable
  {α β ε : Type}
  {versions left right : Versions α}
  {met : List (KeyVersion × α)}
  {version : KeyVersion}

theorem nodup_keys (versions : Versions α) : versions.keys.Nodup := by
  refine versions.keys_ascending.imp ?_
  rintro version _ below rfl
  exact Id.lt_irrefl version below

/-- Under a version the value is found that stands there. -/
theorem find?_eq_some_iff {value : α} :
    versions.find? version = some value ↔ (version, value) ∈ versions.entries := by
  constructor
  · intro found
    obtain ⟨entry, first, rfl⟩ := Option.map_eq_some_iff.mp found
    have named : entry.1 = version := by simpa using List.find?_some first
    subst named
    exact List.mem_of_find?_eq_some first
  · intro member
    have held : versions.contains version = true :=
      contains_iff.mpr (List.mem_map_of_mem member)
    obtain ⟨other, found⟩ := Option.isSome_iff_exists.mp held
    obtain ⟨entry, first, rfl⟩ := Option.map_eq_some_iff.mp found
    have named : entry.1 = version := by simpa using List.find?_some first
    have same : entry = (version, value) :=
      List.inj_on_of_nodup_map versions.nodup_keys (List.mem_of_find?_eq_some first) member named
    rw [found, same]

/-- Maps with the same entries are equal. -/
theorem eq_of_mem_iff
    (same : ∀ entry, entry ∈ left.entries ↔ entry ∈ right.entries) :
    left = right := by
  have distinct (versions : Versions α) : versions.entries.Nodup :=
    List.Nodup.of_map _ versions.nodup_keys
  have reordered : left.entries.Perm right.entries :=
    (List.perm_ext_iff_of_nodup (distinct left) (distinct right)).mpr same
  have equal : left.entries = right.entries :=
    reordered.eq_of_pairwise
      (fun _ _ _ _ before after => (Id.lt_asymm before after).elim)
      left.ascending right.ascending
  cases left
  cases right
  exact (Versions.mk.injEq ..).mpr equal

theorem mem_iff_find?
    (visited : met.Perm versions.entries)
    (entry : KeyVersion × α) :
    entry ∈ met ↔ versions.find? entry.1 = some entry.2 :=
  visited.mem_iff.trans find?_eq_some_iff.symm

theorem mem_iff_contains
    (visited : met.Perm versions.entries) :
    version ∈ met.map (·.1) ↔ versions.contains version = true :=
  (visited.map _).mem_iff.trans contains_iff.symm

/-! ### Entries that are put in one after the other -/

theorem foldl_insert_perm
    (entries : List (KeyVersion × α))
    (held : Versions α)
    (distinct : ((entries ++ held.entries).map (·.1)).Nodup) :
    (entries.foldl (fun held entry => held.insert entry.1 entry.2) held).entries.Perm
      (entries ++ held.entries) := by
  induction entries generalizing held with
  | nil => exact .refl _
  | cons entry entries ih =>
      have unused : entry.1 ∉ held.entries.map (·.1) := by
        rw [List.cons_append, List.map_cons, List.nodup_cons, List.map_append,
          List.mem_append, not_or] at distinct
        exact distinct.1.2
      have grown : (held.insert entry.1 entry.2).entries.Perm (entry :: held.entries) :=
        insertEntry_perm entry.2 unused
      have moved : (entries ++ (held.insert entry.1 entry.2).entries).Perm
          (entry :: entries ++ held.entries) :=
        (grown.append_left entries).trans List.perm_middle
      exact (ih _ ((moved.map _).nodup_iff.mpr distinct)).trans moved

/-- Entries with different versions are all kept. -/
theorem ofList_perm
    {entries : List (KeyVersion × α)}
    (distinct : (entries.map (·.1)).Nodup) :
    (ofList entries).entries.Perm entries := by
  have kept := foldl_insert_perm entries empty
  rw [show (empty : Versions α).entries = [] from rfl, List.append_nil] at kept
  exact kept distinct

/-! ### Conversion -/

variable {convert : α → Except ε β} {entries : List (KeyVersion × α)}

theorem mem_mapEntries
    {images : List (KeyVersion × β)}
    (done : mapEntries convert entries = .ok images)
    (image : β) :
    (version, image) ∈ images ↔
      ∃ value, (version, value) ∈ entries ∧ convert value = .ok image := by
  induction entries generalizing images with
  | nil =>
      cases done
      simp
  | cons entry entries ih =>
      obtain ⟨before, held⟩ := entry
      obtain ⟨first, others, made, rest, rfl⟩ := mapEntries_cons_eq_ok_iff.mp done
      rw [List.mem_cons, ih rest]
      constructor
      · rintro (same | ⟨value, member, mapped⟩)
        · cases same
          exact ⟨held, List.mem_cons_self .., made⟩
        · exact ⟨value, List.mem_cons_of_mem _ member, mapped⟩
      · rintro ⟨value, member, mapped⟩
        rcases List.mem_cons.mp member with same | inRest
        · cases same
          rw [made] at mapped
          cases mapped
          exact .inl rfl
        · exact .inr ⟨value, inRest, mapped⟩

/-- Entries are converted if all their values are. -/
theorem exists_mapEntries_eq_ok_iff :
    (∃ images, mapEntries convert entries = .ok images) ↔
      ∀ entry ∈ entries, ∃ image, convert entry.2 = .ok image := by
  induction entries with
  | nil => exact ⟨fun _ _ member => (List.not_mem_nil member).elim, fun _ => ⟨[], rfl⟩⟩
  | cons entry entries ih =>
      rw [List.forall_mem_cons, ← ih]
      constructor
      · rintro ⟨images, done⟩
        obtain ⟨first, others, made, rest, -⟩ := mapEntries_cons_eq_ok_iff.mp done
        exact ⟨⟨first, made⟩, others, rest⟩
      · rintro ⟨⟨first, made⟩, others, rest⟩
        exact ⟨_, mapEntries_cons_eq_ok_iff.mpr ⟨first, others, made, rest, rfl⟩⟩

theorem exists_of_mapEntries_eq_error
    {fault : ε}
    (failed : mapEntries convert entries = .error fault) :
    ∃ entry ∈ entries, convert entry.2 = .error fault := by
  induction entries with
  | nil => cases failed
  | cons entry entries ih =>
      obtain ⟨version, value⟩ := entry
      rw [mapEntries] at failed
      cases made : convert value with
      | error cause =>
          rw [made] at failed
          cases failed
          exact ⟨_, List.mem_cons_self .., made⟩
      | ok image =>
          cases rest : mapEntries convert entries with
          | error cause =>
              rw [made, rest] at failed
              cases failed
              obtain ⟨other, member, refused⟩ := ih rest
              exact ⟨other, List.mem_cons_of_mem _ member, refused⟩
          | ok images =>
              rw [made, rest] at failed
              cases failed

/-! ### Gathering -/

/--
Puts values into a map as they are met and converted.  The first one that cannot be
converted ends this.
-/
def gather
    (convert : α → Except ε β)
    (met : List (KeyVersion × α)) :
    Except ε (Versions β) :=
  met.foldlM (fun held entry => return held.insert entry.1 (← convert entry.2)) empty

theorem foldlM_insert_eq
    (entries : List (KeyVersion × α))
    (held : Versions β) :
    entries.foldlM (fun held entry => return held.insert entry.1 (← convert entry.2)) held =
      (mapEntries convert entries).map fun images =>
        images.foldl (fun held entry => held.insert entry.1 entry.2) held := by
  induction entries generalizing held with
  | nil => rfl
  | cons entry entries ih =>
      obtain ⟨version, value⟩ := entry
      rw [List.foldlM_cons, mapEntries]
      cases convert value with
      | error fault => rfl
      | ok image =>
          refine (ih (held.insert version image)).trans ?_
          cases mapEntries convert entries <;> rfl

/-- Values may be converted before they are put in. -/
theorem gather_eq (met : List (KeyVersion × α)) :
    gather convert met = (mapEntries convert met).map ofList :=
  foldlM_insert_eq met empty

theorem exists_gather_eq_ok_iff :
    (∃ images, gather convert met = .ok images) ↔
      ∀ entry ∈ met, ∃ image, convert entry.2 = .ok image := by
  rw [gather_eq, ← exists_mapEntries_eq_ok_iff]
  cases mapEntries convert met <;> simp [Except.map]

/-- What ends the gathering is a value that cannot be converted. -/
theorem exists_of_gather_eq_error
    {fault : ε}
    (failed : gather convert met = .error fault) :
    ∃ entry ∈ met, convert entry.2 = .error fault := by
  rw [gather_eq] at failed
  cases done : mapEntries convert met with
  | error cause =>
      rw [done] at failed
      cases failed
      exact exists_of_mapEntries_eq_error done
  | ok images =>
      rw [done] at failed
      cases failed

/-- The entries are those that are met, with their values converted. -/
theorem mem_of_gather
    {images : Versions β}
    (distinct : (met.map (·.1)).Nodup)
    (done : gather convert met = .ok images)
    (image : β) :
    (version, image) ∈ images.entries ↔
      ∃ value, (version, value) ∈ met ∧ convert value = .ok image := by
  rw [gather_eq] at done
  cases mapped : mapEntries convert met with
  | error fault =>
      rw [mapped] at done
      cases done
  | ok converted =>
      rw [mapped] at done
      cases done
      have kept : (converted.map (·.1)).Nodup := by rwa [mapEntries_keys mapped]
      rw [(ofList_perm kept).mem_iff, mem_mapEntries mapped]

/-- The same map comes of it in whatever order the entries are met. -/
theorem gather_of_perm
    {others : List (KeyVersion × α)}
    {images : Versions β}
    (visited : met.Perm others)
    (distinct : (others.map (·.1)).Nodup)
    (done : gather convert met = .ok images) :
    gather convert others = .ok images := by
  have all := exists_gather_eq_ok_iff.mp ⟨images, done⟩
  obtain ⟨same, again⟩ := exists_gather_eq_ok_iff.mpr fun entry member =>
    all entry (visited.mem_iff.mpr member)
  have before : (met.map (·.1)).Nodup := (visited.map _).nodup_iff.mpr distinct
  -- Entries are the same for having been met, so it does not matter when.
  have equal : same = images := by
    apply eq_of_mem_iff
    rintro ⟨version, image⟩
    simp only [mem_of_gather distinct again, mem_of_gather before done, visited.mem_iff]
  rw [again, equal]

theorem traverse_eq_error_iff {fault : ε} :
    versions.traverse convert = .error fault ↔
      mapEntries convert versions.entries = .error fault := by
  rw [traverse]
  split
  · next done => simp [done]
  · next done => simp [done]

/-- To traverse a map is to gather it in the order of the versions. -/
theorem gather_entries (versions : Versions α) :
    gather convert versions.entries = versions.traverse convert := by
  rw [gather_eq]
  cases given : versions.traverse convert with
  | error fault => rw [traverse_eq_error_iff.mp given, Except.map]
  | ok images => rw [traverse_eq_ok_iff.mp given, Except.map, ofList_entries]

/-- A map is gathered as it is traversed in whatever order its entries are met. -/
theorem gather_eq_ok_iff
    {images : Versions β}
    (visited : met.Perm versions.entries) :
    gather convert met = .ok images ↔ versions.traverse convert = .ok images := by
  rw [← gather_entries]
  exact ⟨gather_of_perm visited versions.nodup_keys,
    gather_of_perm visited.symm ((visited.map _).nodup_iff.mpr versions.nodup_keys)⟩

theorem contains_traverse
    {images : Versions β}
    (done : versions.traverse convert = .ok images)
    (version : KeyVersion) :
    images.contains version = versions.contains version := by
  rw [Bool.eq_iff_iff, contains_iff, contains_iff, keys_traverse done]

/-- What is found in a traversed map is the image of what is found in the map. -/
theorem find?_traverse
    {images : Versions β}
    (done : versions.traverse convert = .ok images)
    (image : β) :
    images.find? version = some image ↔
      ∃ value, versions.find? version = some value ∧ convert value = .ok image := by
  rw [← gather_entries] at done
  simp only [find?_eq_some_iff, mem_of_gather versions.nodup_keys done]

end Versions

end SealedDirectory
