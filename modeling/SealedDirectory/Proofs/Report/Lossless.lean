import Mathlib
import SealedDirectory.Proofs.Ident.Canonical
import SealedDirectory.Proofs.Report.Separated
import SealedDirectory.Proofs.Trail.Filled
import SealedDirectory.Report.Export

/-!
# Exports as comma-separated records lose nothing

An entry of the trail is exported as ten fields, the last of which is a document with
commas and quotes of its own.  From these fields the entry is read back, so whoever has the
export has the entries that a filter gives, each once and in their order, whatever the
texts in them are.
-/

namespace SealedDirectory

namespace Export

/--
The entry of a record: whole numbers in decimal, the table by its name, signatures as bare
identifiers, and the details as a document.
-/
def ofRow? : List (List Char) → Option Entry
  | [order, time, table, entity, column, oldTime, newTime, oldSignature, newSignature,
      details] => do
      return {
        kind := ← RecordKind.ofTable? (String.ofList table)
        entity := String.ofList entity
        column := String.ofList column
        oldTime := ← (String.ofList oldTime).toInt?
        newTime := ← (String.ofList newTime).toInt?
        oldSignature := ⟨← (Uuid.parse (String.ofList oldSignature)).toOption⟩
        newSignature := ⟨← (Uuid.parse (String.ofList newSignature)).toOption⟩
        details := ← (Details.codec.decode (String.ofList details)).toOption
        order := ← (String.ofList order).toInt?
        time := ← (String.ofList time).toInt? }
  | _ => none

/-- A whole number is read back from its decimal text. -/
theorem toInt?_integerChars (value : Int) :
    (String.ofList (Json.integerChars value)).toInt? = some value := by
  have written : String.ofList (Json.integerChars value) = value.repr := by
    cases value with
    | ofNat number => rfl
    | negSucc below =>
        apply String.toList_inj.mp
        simp [Json.integerChars, Json.naturalChars, Int.repr, Nat.repr]
  rw [written, Int.toInt?_repr]

/-- An entry with legible details is read back from its record. -/
theorem ofRow?_row
    {entry : Entry}
    (legible : entry.details.Legible) :
    ofRow? (row entry) = some entry := by
  simp [ofRow?, row, toInt?_integerChars, Id.bare, Uuid.parse_text, Details.decode_text legible,
    Except.toOption]

/-- A record of the export has ten fields, and an entry is read back from them. -/
structure Carries
    (record : List (List Char))
    (entry : Entry) :
    Prop where
  fields : record.length = 10
  back : ofRow? record = some entry

/-- The headings and the records of legible entries are read back from the export. -/
theorem read_csv
    {entries : List Entry}
    (legible : ∀ entry ∈ entries, entry.details.Legible) :
    Csv.read (csv entries) = some (headings.map String.toList :: entries.map row) ∧
      List.Forall₂ Carries (entries.map row) entries := by
  constructor
  · apply Csv.read_write
    intro record member
    rcases List.mem_cons.mp member with rfl | member
    · exact List.cons_ne_nil _ _
    · obtain ⟨entry, -, rfl⟩ := List.mem_map.mp member
      exact List.cons_ne_nil _ _
  · rw [List.forall₂_map_left_iff, List.forall₂_same]
    intro entry member
    exact ⟨rfl, ofRow?_row (legible entry member)⟩

end Export

/--
Entries with legible details are offered to an empty trail, and a filter asks for some of
those that were accepted.  A reader of their export then finds ten headings and one record
for each entry that the filter gives, in the same order, and reads that entry back from
its record.
-/
theorem separated_export_is_read_back_as_the_listed_entries
    {tables : Tables}
    (empty : tables.trail = [])
    {offered : List Entry}
    (legible : ∀ entry ∈ offered, entry.details.Legible)
    (filter : TrailFilter)
    (moment : Calendar.Moment) :
    ∃ held records,
      held.Sublist offered ∧
      (offered.foldl Tables.offer tables).trail = held.map EntryRow.ofEntry ∧
      (offered.foldl Tables.offer tables).entries filter = .ok (filter.select held) ∧
      Csv.read (ExportForm.csv.text (.ofEntries moment (filter.select held))) =
        some (Export.headings.map String.toList :: records) ∧
      Export.headings.length = 10 ∧
      List.Forall₂ Export.Carries records (filter.select held) := by
  have nothing : tables.trail = [].map EntryRow.ofEntry := empty
  obtain ⟨held, among, trail⟩ := Tables.trail_offers nothing offered
  have heldLegible : ∀ entry ∈ held, entry.details.Legible :=
    fun entry member => legible entry (among.subset member)
  have listedLegible : ∀ entry ∈ filter.select held, entry.details.Legible :=
    fun entry member => heldLegible entry (TrailFilter.mem_of_mem_select member)
  obtain ⟨read, carried⟩ := Export.read_csv listedLegible
  exact ⟨held, _, among, trail, Tables.entries_eq_select trail heldLegible filter, read, rfl,
    carried⟩

theorem awkward_entries_are_read_back :
    Tables.empty.trail = [] ∧
      (∀ entry ∈ Sample.awkwardEntries, entry.details.Legible) ∧
      ∃ held records,
        held.length = 2 ∧
        Csv.read (ExportForm.csv.text (.ofEntries ⟨0, 0⟩ (TrailFilter.select {} held))) =
          some (Export.headings.map String.toList :: records) ∧
        List.Forall₂ Export.Carries records (TrailFilter.select {} held) := by
  obtain ⟨held, records, -, trail, -, read, -, carried⟩ :=
    separated_export_is_read_back_as_the_listed_entries (show Tables.empty.trail = [] from rfl)
      Sample.legible_awkwardEntries {} ⟨0, 0⟩
  refine ⟨rfl, Sample.legible_awkwardEntries, held, records, ?_, read, carried⟩
  have two : (Sample.awkwardEntries.foldl Tables.offer .empty).trail.length = 2 := by decide
  simpa [trail] using two

end SealedDirectory
