import SealedDirectory.Proofs.Trail.Legible

/-!
# Trails that entries are offered to

Entries are offered to the trail one after the other, in any order of their places.  One
that breaks a rule of the table is refused and changes nothing; every other one is put
behind those that are there.  So the trail consists of some of the entries that were
offered, and if those are legible, a filter gives what it selects among them.
-/

namespace SealedDirectory

open Json Json.Reader

namespace Tables

/-- The tables after an entry was offered to the trail; they stay as they are if it is refused. -/
def offer
    (tables : Tables)
    (entry : Entry) :
    Tables :=
  match tables.insertEntry entry with
  | .ok after => after
  | .error _ => tables

variable {tables : Tables} {held : List Entry}

/-- An offered entry is put behind the others, or it is not there. -/
theorem trail_offer
    (trail : tables.trail = held.map EntryRow.ofEntry)
    (entry : Entry) :
    ∃ added, added.Sublist [entry] ∧
      (tables.offer entry).trail = (held ++ added).map EntryRow.ofEntry := by
  cases inserted : tables.insertEntry entry with
  | error fault => exact ⟨[], List.nil_sublist _, by simp [offer, inserted, trail]⟩
  | ok after =>
      refine ⟨[entry], List.Sublist.refl _, ?_⟩
      obtain ⟨rows, accepted, same⟩ := bind_eq_ok.mp inserted
      cases same
      simp [offer, inserted, (insertRow_eq_ok.mp accepted).2, trail]

/-- Some of the offered entries are put behind the others, in the order of the offers. -/
theorem trail_offers
    (trail : tables.trail = held.map EntryRow.ofEntry)
    (offered : List Entry) :
    ∃ accepted, accepted.Sublist offered ∧
      (offered.foldl offer tables).trail = (held ++ accepted).map EntryRow.ofEntry := by
  induction offered generalizing tables held with
  | nil => exact ⟨[], List.Sublist.refl _, by simpa using trail⟩
  | cons entry offered ih =>
      obtain ⟨added, first, one⟩ := trail_offer trail entry
      obtain ⟨accepted, others, more⟩ := ih one
      refine ⟨added ++ accepted, first.append others, ?_⟩
      rw [List.foldl_cons, more, List.append_assoc]

end Tables

namespace Sample

/-- A list in an object beside a number that only fits into sixty-four bits without a sign. -/
def nestedDetails : Details where
  old := .object [("a", .list [.integer (-9223372036854775808), .text ",\"\r\n"]), ("b", .null)]
  new := .integer 18446744073709551615

theorem nested_nestedDetails
    (levels : Nat) :
    Nested (levels + 2) nestedDetails.old ∧ Nested (levels + 2) nestedDetails.new := by
  constructor
  · apply Nested.object (by unfold Ascending; decide)
    simp only [List.forall_mem_cons]
    refine ⟨.list ?_, .plain .null, by simp⟩
    simp only [List.forall_mem_cons]
    exact ⟨.plain (.integer (by simp [InRange])), .plain (.text _), by simp⟩
  · exact .plain (.integer (by simp [InRange]))

theorem legible_nestedDetails : nestedDetails.Legible :=
  have nested := nested_nestedDetails _
  ⟨nested.1, nested.2⟩

/-- Entries with commas, quotes, ends of lines and a letter beyond ASCII in their texts. -/
def awkward (order : Int) (column : String) : Entry where
  kind := .org
  entity := "a,\"b\"\r\nc"
  column
  oldTime := -1
  newTime := 2
  oldSignature := ⟨.ofRandom []⟩
  newSignature := ⟨.ofRandom [1]⟩
  details := nestedDetails
  order
  time := 3

/-- The third of these is refused, since its place is taken. -/
def awkwardEntries : List Entry :=
  [awkward 2 "ü,", awkward 1 "", awkward 2 "\n"]

theorem legible_awkwardEntries : ∀ entry ∈ awkwardEntries, entry.details.Legible := by
  simp [awkwardEntries, awkward, legible_nestedDetails]

end Sample

end SealedDirectory
