import SealedDirectory.Proofs.Directory.Reach

/-!
# Records keep their places

A record gets its place in the order of insertion when it is inserted, above the places of
all organizations and users that are stored by then, and it keeps this place.  Entries are
only ever added at the end of the trail.  So the places tell in which order things were
stored, across the two kinds of records.
-/

namespace SealedDirectory.Tables

variable {before middle after : Tables} {deed : Deed} {deeds : List Deed}

/-! ## Two moments of one store -/

/-- What is stored at one moment goes on to be stored at another one, and is followed there. -/
structure Continues (before after : Tables) : Prop where
  /-- A record stays, and so does its place. -/
  kept : ∀ kind id row, before.row? kind id = some row →
    ∃ now, after.row? kind id = some now ∧ kind.orderCell now = kind.orderCell row
  /-- A record that was not stored yet has its place after every record that was. -/
  followed : ∀ kind id row, before.row? kind id = some row →
    ∀ other new added, before.row? other new = none → after.row? other new = some added →
      (kind.orderCell row).Precedes (other.orderCell added)
  trail : ∃ rows, after.trail = before.trail ++ rows

theorem Continues.trans
    (first : Continues before middle)
    (second : Continues middle after) :
    Continues before after where
  kept := by
    intro kind id row stored
    rcases first.kept kind id row stored with ⟨between, there, same⟩
    rcases second.kept kind id between there with ⟨now, here, still⟩
    exact ⟨now, here, still.trans same⟩
  followed := by
    intro kind id row stored other new added absent present
    rcases first.kept kind id row stored with ⟨between, there, same⟩
    cases met : middle.row? other new with
    | none =>
        have follows := second.followed kind id between there other new added met present
        rwa [same] at follows
    | some earlier =>
        rcases second.kept other new earlier met with ⟨now, here, still⟩
        cases present.symm.trans here
        rw [still]
        exact first.followed kind id row stored other new earlier absent met
  trail := by
    rcases first.trail with ⟨earlier, grown⟩
    rcases second.trail with ⟨later, grownAgain⟩
    exact ⟨earlier ++ later, by rw [grownAgain, grown, List.append_assoc]⟩

theorem Rests.continues (idle : Rests before after) : Continues before after where
  kept := by
    intro kind id row stored
    exact ⟨row, by rw [idle.row?_eq, stored], rfl⟩
  followed := by
    intro kind id row stored other new added absent present
    rw [idle.row?_eq, absent] at present
    cases present
  trail := ⟨[], by rw [idle.trail, List.append_nil]⟩

theorem Inserted.continues
    {sight : Sight} {row : sight.kind.Row}
    (inserted : Inserted sight row before after)
    (sound : before.Sound) :
    Continues before after where
  kept := by
    intro kind id old stored
    refine ⟨old, ?_, rfl⟩
    by_cases sameKind : kind = sight.kind
    · subst sameKind
      rw [row?] at stored ⊢
      rw [inserted.rows_eq, List.find?_append, stored, Option.some_or]
    · rw [row?, inserted.rows_of_ne sameKind]
      exact stored
  followed := by
    intro kind id old stored other new added absent present
    have concerned : (Deed.inserted sight (sight.kind.contents row)).concerns other new = true := by
      by_contra notConcerned
      rw [(Undergoes.inserted inserted).row?_of_other (by simpa using notConcerned),
        absent] at present
      cases present
    simp only [Deed.concerns, Bool.decide_and, Bool.and_eq_true, decide_eq_true_eq] at concerned
    rcases concerned with ⟨rfl, rfl⟩
    have isNew := Option.some.inj (present.symm.trans inserted.row?_after)
    rw [isNew]
    exact inserted.last sound.numbered kind old (sound.row?_eq_some_iff.mp stored).1
  trail := ⟨[], by rw [inserted.trail_eq, List.append_nil]⟩

theorem Replaced.continues
    {sight : Sight} {signature : Signature} {entries : List Entry} {old new : sight.kind.Row}
    (replaced : Replaced sight signature entries old new before after) :
    Continues before after := by
  have elsewhere (kind : RecordKind) (id : Uuid)
      (other : ¬ (sight.kind = kind ∧ sight.id = id)) :
      after.row? kind id = before.row? kind id := by
    apply (Undergoes.changed replaced).row?_of_other
    exact decide_eq_false other
  constructor
  · intro kind id row stored
    by_cases concerned : sight.kind = kind ∧ sight.id = id
    · rcases concerned with ⟨rfl, rfl⟩
      cases stored.symm.trans replaced.row?_before
      exact ⟨new, replaced.row?_after, replaced.sameOrder⟩
    · exact ⟨row, by rw [elsewhere kind id concerned, stored], rfl⟩
  · intro kind id row stored other fresh added absent present
    by_cases concerned : sight.kind = other ∧ sight.id = fresh
    · rcases concerned with ⟨rfl, rfl⟩
      cases absent.symm.trans replaced.row?_before
    · rw [elsewhere other fresh concerned, absent] at present
      cases present
  · exact ⟨_, replaced.trail_eq⟩

theorem Evolves.continues
    (evolves : Evolves before deeds after)
    (sound : before.Sound) :
    Continues before after := by
  induction evolves with
  | @done tables => exact (Rests.refl tables).continues
  | rests idle next ih => exact idle.continues.trans (ih (idle.sound sound))
  | undergoes does next ih =>
      refine Continues.trans ?_ (ih (does.sound sound))
      cases does with
      | inserted inserted => exact inserted.continues sound
      | changed replaced => exact replaced.continues

/-! ## One moment -/

/-- In every table the places ascend from row to row. -/
structure Ascending (tables : Tables) : Prop where
  rows : ∀ kind, ((tables.rows kind).map kind.orderCell).Pairwise Cell.Precedes
  trail : (tables.trail.map EntryRow.order).Pairwise Cell.Precedes

theorem Sound.ascending_trail
    {tables : Tables}
    (sound : tables.Sound) :
    (tables.trail.map EntryRow.order).Pairwise Cell.Precedes := by
  rcases sound.noted with ⟨entries, noted⟩
  rw [noted.trail, List.map_map, List.pairwise_map]
  exact noted.ascending.imp fun {entry next} below => ⟨entry.order, next.order, rfl, rfl, below⟩

/-- A deed adds a row after all others, or it leaves the places as they are. -/
theorem Undergoes.ascending_rows
    (does : Undergoes before deed after)
    (sound : before.Sound)
    (ascending : ∀ kind, ((before.rows kind).map kind.orderCell).Pairwise Cell.Precedes)
    (kind : RecordKind) :
    ((after.rows kind).map kind.orderCell).Pairwise Cell.Precedes := by
  cases does with
  | @inserted sight row after inserted =>
      by_cases sameKind : kind = sight.kind
      · subst sameKind
        rw [inserted.rows_eq, List.map_append, List.pairwise_append]
        refine ⟨ascending _, List.pairwise_singleton _ _, ?_⟩
        intro cell inTable new isNew
        rcases List.mem_map.mp inTable with ⟨other, stored, rfl⟩
        rw [List.map_singleton, List.mem_singleton] at isNew
        rw [isNew]
        exact inserted.last sound.numbered _ other stored
      · rw [inserted.rows_of_ne sameKind]
        exact ascending kind
  | @changed sight signature entries old new after replaced =>
      by_cases sameKind : kind = sight.kind
      · subst sameKind
        have same := ascending sight.kind
        rcases replaced.rows_eq with ⟨earlier, later, placed, result, -⟩
        rw [placed, List.map_append, List.map_cons, ← replaced.sameOrder] at same
        rwa [result, List.map_append, List.map_cons]
      · rw [replaced.rows_of_ne sameKind]
        exact ascending kind

theorem Evolves.ascending_rows
    (evolves : Evolves before deeds after)
    (sound : before.Sound)
    (ascending : ∀ kind, ((before.rows kind).map kind.orderCell).Pairwise Cell.Precedes)
    (kind : RecordKind) :
    ((after.rows kind).map kind.orderCell).Pairwise Cell.Precedes := by
  induction evolves with
  | done => exact ascending kind
  | rests idle next ih =>
      apply ih (idle.sound sound)
      intro other
      rw [idle.rows_eq]
      exact ascending other
  | undergoes does next ih => exact ih (does.sound sound) (does.ascending_rows sound ascending)

theorem Evolves.ascending
    (evolves : Evolves before deeds after)
    (sound : before.Sound)
    (ascending : before.Ascending) :
    after.Ascending where
  rows := evolves.ascending_rows sound ascending.rows
  trail := (evolves.sound sound).ascending_trail

theorem Ascending.empty : Tables.empty.Ascending where
  rows := by
    intro kind
    cases kind <;> exact .nil
  trail := .nil

end SealedDirectory.Tables
