import SealedDirectory.Console.Answer
import SealedDirectory.Proofs.Calendar.Written
import SealedDirectory.Proofs.Json.Composed
import SealedDirectory.Proofs.Key.Stored
import SealedDirectory.Proofs.Trail.Reference

/-!
# Exports as documents are read back

The export of the trail in JSON, on one line or over several, is read back as the value
that was written: every text, number, identifier and moment in it, and the details with
whatever is nested in them.  The values in the details stand four levels deep in the
document, so a reader goes that much less deep into them than into a document of their own.

The summary gives the first and the last place of the entries in their order, which are the
least and the greatest, since that order is the order of the places.
-/

namespace SealedDirectory

open Json Json.Reader

/-! ## Moments -/

/-- A moment that a calendar shows is read back from a document. -/
theorem Calendar.Moment.readsBack_codec
    {moment : Calendar.Moment}
    (shown : moment.Shown)
    (layout : Layout)
    (depth : Nat) :
    Calendar.Moment.codec.ReadsBack layout depth moment := by
  apply Codec.readsBack_textForm
  rw [Calendar.Moment.parse_text shown]
  rfl

/-! ## Entries -/

/-- The levels that remain for a value, since the document around it takes four. -/
def Export.levels : Nat := depthLimit - 5

/-- The numbers of an entry fit into a document, and so do the values in its details. -/
structure Entry.Exportable
    (entry : Entry) :
    Prop where
  oldTime : Codec.IsInt64 entry.oldTime
  newTime : Codec.IsInt64 entry.newTime
  order : Codec.IsInt64 entry.order
  time : Codec.IsInt64 entry.time
  old : Nested Export.levels entry.details.old
  new : Nested Export.levels entry.details.new

example : 100 ≤ Export.levels := by decide

namespace Entry

variable {entry : Entry} {entries : List Entry}

theorem Exportable.legible
    (exportable : entry.Exportable) :
    entry.details.Legible :=
  ⟨exportable.old.mono (by decide), exportable.new.mono (by decide)⟩

theorem distinct_fields :
    Entry.fields.names.Nodup := by
  decide +kernel

theorem Exportable.readsBack
    {layout : Layout}
    {depth : Nat}
    (exportable : entry.Exportable)
    (loose : layout.Loose)
    (enough : Export.levels ≤ depth) :
    Entry.codec.ReadsBack layout (depth + 3) entry := by
  have details := Details.readsBack_codec loose exportable.old exportable.new enough
  exact Codec.readsBack_record loose distinct_fields
    ⟨Codec.readsBack_oneOf (RecordKind.ofTable?_table entry.kind),
      Codec.readsBack_text entry.entity _ _, Codec.readsBack_text entry.column _ _,
      Codec.readsBack_int64 exportable.oldTime _ _, Codec.readsBack_int64 exportable.newTime _ _,
      Id.readsBack_codec entry.oldSignature _ _, Id.readsBack_codec entry.newSignature _ _,
      details, Codec.readsBack_int64 exportable.order _ _,
      Codec.readsBack_int64 exportable.time _ _, trivial⟩ rfl

end Entry

/-! ## Summaries -/

namespace Summary

variable {entries : List Entry}

/-- The first of places that ascend is the least. -/
theorem first_ofEntries
    (ascending : entries.Pairwise fun entry later => entry.order < later.order) :
    (ofEntries entries).first = (entries.map Entry.order).min? := by
  cases entries with
  | nil => rfl
  | cons entry entries =>
      apply Eq.symm
      apply List.min?_eq_some_iff.mpr
      refine ⟨List.mem_cons_self .., ?_⟩
      simp only [List.map_cons, List.forall_mem_cons, List.forall_mem_map]
      exact ⟨Int.le_refl _, fun later member =>
        Int.le_of_lt ((List.pairwise_cons.mp ascending).1 later member)⟩

/-- The last of places that ascend is the greatest. -/
theorem last_ofEntries
    (ascending : entries.Pairwise fun entry later => entry.order < later.order) :
    (ofEntries entries).last = (entries.map Entry.order).max? := by
  rcases List.eq_nil_or_concat entries with rfl | ⟨earlier, entry, rfl⟩
  · rfl
  · rw [List.concat_eq_append] at ascending ⊢
    have last : (ofEntries (earlier ++ [entry])).last = some entry.order := by
      simp [ofEntries]
    rw [last]
    apply Eq.symm
    apply List.max?_eq_some_iff.mpr
    refine ⟨by simp, ?_⟩
    simp only [List.forall_mem_map, List.mem_append, List.mem_singleton]
    rintro before (member | rfl)
    · exact Int.le_of_lt
        ((List.pairwise_append.mp ascending).2.2 before member entry (List.mem_singleton_self _))
    · exact Int.le_refl _

theorem first_eq_none_iff :
    (ofEntries entries).first = none ↔ entries = [] := by
  simp [ofEntries]

theorem last_eq_none_iff :
    (ofEntries entries).last = none ↔ entries = [] := by
  simp [ofEntries]

/-- How many entries the summary of a document can count. -/
def most : Nat := 18446744073709551615

theorem readsBack_ofEntries
    {layout : Layout}
    {depth : Nat}
    (loose : layout.Loose)
    (exportable : ∀ entry ∈ entries, entry.Exportable)
    (few : entries.length ≤ most) :
    codec.ReadsBack layout (depth + 2) (ofEntries entries) := by
  have first : ∀ value ∈ (ofEntries entries).first, Codec.IsInt64 value := by
    intro value isFirst
    obtain ⟨entry, isHead, rfl⟩ := Option.map_eq_some_iff.mp isFirst
    exact (exportable entry (List.mem_of_head? isHead)).order
  have last : ∀ value ∈ (ofEntries entries).last, Codec.IsInt64 value := by
    intro value isLast
    obtain ⟨entry, isEnd, rfl⟩ := Option.map_eq_some_iff.mp isLast
    exact (exportable entry (List.mem_of_getLast? isEnd)).order
  unfold most at few
  have counted : 0 ≤ (entries.length : Int) ∧ (entries.length : Int) ≤ 18446744073709551615 := by
    omega
  exact Codec.readsBack_record loose (by decide)
    ⟨Codec.readsBack_integerBetween "usize" counted ⟨by omega, counted.2⟩ _ _,
      Codec.readsBack_optional_int64 first _ _, Codec.readsBack_optional_int64 last _ _, trivial⟩
    rfl

end Summary

/-! ## Exports -/

namespace Export

variable {entries : List Entry} {moment : Calendar.Moment}

theorem readsBack_ofEntries
    {layout : Layout}
    (loose : layout.Loose)
    (shown : moment.Shown)
    (exportable : ∀ entry ∈ entries, entry.Exportable)
    (few : entries.length ≤ Summary.most) :
    codec.ReadsBack layout depthLimit (ofEntries moment entries) := by
  have records : Entry.codec.list.ReadsBack layout (depthLimit - 1) entries :=
    Codec.readsBack_list loose (fun entry _ => begins_object layout _)
      fun entry member => (exportable entry member).readsBack loose (Nat.le_add_right levels 0)
  exact Codec.readsBack_record loose (by decide)
    ⟨Codec.readsBack_text currentFormat _ _, Calendar.Moment.readsBack_codec shown _ _,
      Codec.readsBack_text programVersion _ _, records,
      Summary.readsBack_ofEntries loose exportable few, trivial⟩ rfl

/-- The text of an export in JSON is read back as that export, in both layouts. -/
theorem decode_json
    (shown : moment.Shown)
    (exportable : ∀ entry ∈ entries, entry.Exportable)
    (few : entries.length ≤ Summary.most)
    (pretty : Bool) :
    codec.decode ((ofEntries moment entries).json pretty) = .ok (ofEntries moment entries) := by
  cases pretty with
  | false => exact (readsBack_ofEntries Layout.loose_compact shown exportable few).decode
  | true => exact (readsBack_ofEntries Layout.loose_pretty shown exportable few).decode

end Export

/-! ## Exports of a session -/

/-- The text of the export of what a filter asks for, at the moment that the clock shows. -/
def Directory.exported
    (form : ExportForm)
    (filter : TrailFilter) :
    Work String := do
  let entries ← Directory.trail filter
  return form.text (Export.ofEntries (← Work.moment) entries)

/-- The command that exports asks for the entries of one table, or of both. -/
theorem Console.exportText_eq
    (form : ExportForm)
    (kind : Option RecordKind) :
    Console.exportText form kind = Directory.exported form { kind } := rfl

theorem Directory.exported_gives
    {session : Session}
    {filter : TrailFilter}
    {listed : List Entry}
    (lists : (Directory.trail filter).Gives session listed session)
    (form : ExportForm) :
    (exported form filter).Gives session
      (form.text (.ofEntries (session.source.clock session.drawn.clock) listed))
      (Work.afterClock session) :=
  Work.gives_bind.mpr ⟨listed, session, lists, rfl⟩

/--
Entries are put into an empty trail, some of which may be refused.  The export of what a
filter gives of them, in JSON and in either layout, is read back as the value that was
written.  This has the entries that the filter gives, in their order, and it says how many
there are and which are their least and their greatest places, if there are any.
-/
theorem documents_of_the_trail_are_read_back
    {session : Session}
    (empty : session.tables.trail = [])
    (shown : ∀ reading, (session.source.clock reading).Shown)
    {offered : List Entry}
    (exportable : ∀ entry ∈ offered, entry.Exportable)
    (room : (Entry.accepted offered).length ≤ TrailFilter.rowLimit)
    (filter : TrailFilter) :
    ∃ listed written,
      (Directory.trail filter).Gives (session.entered offered) listed
        (session.entered offered) ∧
      (∀ form ∈ [ExportForm.json, ExportForm.compactJson], ∃ after,
        (Directory.exported form filter).Gives (session.entered offered) (form.text written)
          after ∧
        Export.codec.decode (form.text written) = .ok written) ∧
      written.entries = listed ∧
      written.summary.count = listed.length ∧
      written.summary.first = (listed.map Entry.order).min? ∧
      written.summary.last = (listed.map Entry.order).max? ∧
      (written.summary.first = none ↔ listed = []) ∧
      (written.summary.last = none ↔ listed = []) := by
  have legible : ∀ entry ∈ offered, entry.details.Legible :=
    fun entry member => (exportable entry member).legible
  obtain ⟨matching, isMatching, lists⟩ := Session.trail_gives empty legible room filter
  have part := filter.first_sublist matching
  have among : ∀ entry ∈ filter.first matching, entry ∈ Entry.accepted offered :=
    fun entry member =>
      (List.mem_filter.mp (isMatching.wanted.mem_iff.mp (part.subset member))).1
  have listedExportable : ∀ entry ∈ filter.first matching, entry.Exportable :=
    fun entry member => exportable entry
      ((Entry.accepted_sublist offered).subset (among entry member))
  have few : (filter.first matching).length ≤ Summary.most := by
    have fewer := part.length_le.trans
      (isMatching.wanted.length_eq.trans_le (List.length_filter_le _ _))
    exact (fewer.trans room).trans (by decide)
  have ascending := isMatching.ascending.sublist part
  obtain ⟨now, isNow⟩ : ∃ now, now = (session.entered offered).source.clock
      (session.entered offered).drawn.clock := ⟨_, rfl⟩
  have nowShown : now.Shown := by
    rw [isNow, Session.entered_eq]
    exact shown _
  refine ⟨filter.first matching, .ofEntries now (filter.first matching), lists, ?_, rfl, rfl,
    Summary.first_ofEntries ascending, Summary.last_ofEntries ascending,
    Summary.first_eq_none_iff, Summary.last_eq_none_iff⟩
  intro form isJson
  refine ⟨_, isNow ▸ Directory.exported_gives lists form, ?_⟩
  simp only [List.mem_cons, List.not_mem_nil, or_false] at isJson
  rcases isJson with rfl | rfl
  · exact Export.decode_json nowShown listedExportable few true
  · exact Export.decode_json nowShown listedExportable few false

namespace Sample

theorem exportable_awkward
    {order : Int}
    (fits : Codec.IsInt64 order)
    (column : String) :
    (awkward order column).Exportable where
  oldTime := show Codec.IsInt64 (-1) from ⟨by decide, by decide⟩
  newTime := show Codec.IsInt64 2 from ⟨by decide, by decide⟩
  order := fits
  time := show Codec.IsInt64 3 from ⟨by decide, by decide⟩
  old := (nested_nestedDetails 121).1
  new := (nested_nestedDetails 121).2

theorem exportable_awkwardEntries : ∀ entry ∈ awkwardEntries, entry.Exportable := by
  simp only [awkwardEntries, List.forall_mem_cons]
  exact ⟨exportable_awkward ⟨by decide, by decide⟩ _, exportable_awkward ⟨by decide, by decide⟩ _,
    exportable_awkward ⟨by decide, by decide⟩ _, by simp⟩

theorem shown_beginning : Calendar.Moment.Shown ⟨0, 0⟩ where
  least := by decide
  greatest := by decide
  fraction := .inl (by decide)

theorem shown_vacant (reading : Nat) : (vacant.source.clock reading).Shown :=
  shown_beginning

end Sample

/-- Of three entries with awkward texts two are accepted, and both come back. -/
theorem document_of_awkward_entries_is_read_back :
    Sample.vacant.tables.trail = [] ∧
      (∀ reading, (Sample.vacant.source.clock reading).Shown) ∧
      (∀ entry ∈ Sample.awkwardEntries, entry.Exportable) ∧
      (Entry.accepted Sample.awkwardEntries).length ≤ TrailFilter.rowLimit ∧
      ∃ listed written,
        (Directory.trail {}).Gives (Sample.vacant.entered Sample.awkwardEntries) listed
          (Sample.vacant.entered Sample.awkwardEntries) ∧
        Export.codec.decode (ExportForm.json.text written) = .ok written ∧
        Export.codec.decode (ExportForm.compactJson.text written) = .ok written ∧
        written.entries = listed := by
  have room : (Entry.accepted Sample.awkwardEntries).length ≤ TrailFilter.rowLimit := by decide
  have vacant : Sample.vacant.tables.trail = [] := rfl
  obtain ⟨listed, written, lists, reads, same, -⟩ :=
    documents_of_the_trail_are_read_back vacant Sample.shown_vacant
      Sample.exportable_awkwardEntries room {}
  obtain ⟨-, -, overLines⟩ := reads .json (List.mem_cons_self ..)
  obtain ⟨-, -, onOneLine⟩ := reads .compactJson (by decide)
  exact ⟨rfl, Sample.shown_vacant, Sample.exportable_awkwardEntries, room, listed, written, lists,
    overLines, onOneLine, same⟩

end SealedDirectory
