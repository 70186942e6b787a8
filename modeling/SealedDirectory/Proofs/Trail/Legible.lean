import SealedDirectory.Proofs.Json.Nested
import SealedDirectory.Proofs.Store.Rows

/-!
# The trail can be read

The details of an entry are stored as a text.  Details whose two values are no deeper
than a reader goes are read back from that text, and so is the whole entry.  A filter
gives the entries that it admits in the order of their places, which is the order of the
trail if that ascends.
-/

namespace SealedDirectory

open Json Json.Reader

/-! ## Details -/

namespace Details

/-- The levels that remain for a value, since the details around it take one. -/
def levels : Nat := depthLimit - 2

/-- Both values of the details can be read back. -/
structure Legible
    (details : Details) :
    Prop where
  old : Nested levels details.old
  new : Nested levels details.new

/-- Both values of the details are plain. -/
structure Plain
    (details : Details) :
    Prop where
  old : Reader.Plain details.old
  new : Reader.Plain details.new

theorem Plain.legible
    {details : Details}
    (plain : details.Plain) :
    details.Legible :=
  ⟨.plain plain.old, .plain plain.new⟩

/-- Details are read back by a reader that goes two levels deeper than their values. -/
theorem readsBack_codec
    {layout : Layout}
    {details : Details}
    {depth deep : Nat}
    (loose : layout.Loose)
    (old : Nested deep details.old)
    (new : Nested deep details.new)
    (enough : deep ≤ depth) :
    codec.ReadsBack layout (depth + 2) details :=
  have deeper := Nat.lt_succ_of_le enough
  Codec.readsBack_record loose (by decide)
    ⟨Codec.readsBack_nested loose old deeper, Codec.readsBack_nested loose new deeper, trivial⟩
    rfl

/-- Legible details are read back from their text. -/
theorem decode_text
    {details : Details}
    (legible : details.Legible) :
    codec.decode details.text = .ok details := by
  have back : codec.ReadsBack .compact depthLimit details :=
    readsBack_codec Layout.loose_compact legible.old legible.new (Nat.le_refl levels)
  exact back.decode

end Details

/-! ## Entries -/

theorem EntryRow.toEntry_ofEntry
    {entry : Entry}
    (legible : entry.details.Legible) :
    (EntryRow.ofEntry entry).toEntry = .ok entry := by
  simp only [EntryRow.toEntry, EntryRow.ofEntry, Cell.read_holds, Details.decode_text legible]
  rfl

theorem EntryRow.mapM_toEntry
    {entries : List Entry}
    (legible : ∀ entry ∈ entries, entry.details.Legible) :
    (entries.map EntryRow.ofEntry).mapM EntryRow.toEntry = .ok entries := by
  induction entries with
  | nil => rfl
  | cons entry entries ih =>
      have others := ih fun other member => legible other (List.mem_cons_of_mem _ member)
      rw [List.map_cons, List.mapM_cons,
        EntryRow.toEntry_ofEntry (legible entry (List.mem_cons_self ..)), others]
      rfl

/-! ## What a filter gives -/

namespace TrailFilter

theorem map_cut
    {ρ σ : Type}
    (filter : TrailFilter)
    (f : ρ → σ)
    (rows : List ρ) :
    (filter.cut rows).map f = filter.cut (rows.map f) := by
  unfold cut
  split
  · rfl
  · split
    · exact List.map_take
    · rfl

theorem cut_sublist
    {ρ : Type}
    (filter : TrailFilter)
    (rows : List ρ) :
    (filter.cut rows).Sublist rows := by
  unfold cut
  split
  · exact List.Sublist.refl _
  · split
    · exact List.take_sublist _ _
    · exact List.Sublist.refl _

/-- The entries that a filter asks for, in the order of their places. -/
def select
    (filter : TrailFilter)
    (entries : List Entry) :
    List Entry :=
  filter.cut ((entries.filter fun entry => filter.admits (.ofEntry entry)).mergeSort
    fun entry later => entry.order ≤ later.order)

theorem mem_of_mem_select
    {filter : TrailFilter}
    {entries : List Entry}
    {entry : Entry}
    (member : entry ∈ filter.select entries) :
    entry ∈ entries := by
  have sorted := (filter.cut_sublist _).subset member
  exact (List.mem_filter.mp (List.mem_mergeSort.mp sorted)).1

end TrailFilter

/-- A filter gives what it selects among the entries of a trail that can be read. -/
theorem Tables.entries_eq_select
    {tables : Tables}
    {held : List Entry}
    (trail : tables.trail = held.map EntryRow.ofEntry)
    (legible : ∀ entry ∈ held, entry.details.Legible)
    (filter : TrailFilter) :
    tables.entries filter = .ok (filter.select held) := by
  have admitted :
      tables.trail.filter filter.admits =
        (held.filter fun entry => filter.admits (.ofEntry entry)).map EntryRow.ofEntry := by
    rw [trail, List.filter_map]
    rfl
  have ordered (entries : List Entry) :
      inOrder EntryRow.order (entries.map EntryRow.ofEntry) =
        (entries.mergeSort fun entry later => entry.order ≤ later.order).map
          EntryRow.ofEntry := by
    apply Eq.symm
    apply List.map_mergeSort
    intro entry member later others
    rfl
  rw [Tables.entries, admitted, ordered, ← TrailFilter.map_cut]
  exact EntryRow.mapM_toEntry fun entry member =>
    legible entry (TrailFilter.mem_of_mem_select member)

/-- A trail holds these entries in ascending order, and they can be read. -/
structure Tables.Noted
    (tables : Tables)
    (entries : List Entry) :
    Prop where
  trail : tables.trail = entries.map EntryRow.ofEntry
  ascending : entries.Pairwise fun entry later => entry.order < later.order
  plain : ∀ entry ∈ entries, entry.details.Plain

namespace Tables.Noted

variable {tables : Tables} {entries : List Entry}

/-- A filter without a limit gives the entries that it admits, in their order. -/
theorem entries_eq
    (noted : tables.Noted entries)
    {filter : TrailFilter}
    (unlimited : filter.limit = none) :
    tables.entries filter =
      .ok (entries.filter fun entry => filter.admits (.ofEntry entry)) := by
  rw [entries_eq_select noted.trail fun entry member => (noted.plain entry member).legible,
    TrailFilter.select, TrailFilter.cut, unlimited]
  congr 1
  apply List.mergeSort_of_pairwise
  apply (noted.ascending.filter _).imp
  intro entry later before
  simpa using Int.le_of_lt before

end Tables.Noted

end SealedDirectory
