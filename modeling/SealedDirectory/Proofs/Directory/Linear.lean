import SealedDirectory.Proofs.Directory.Founding

/-!
# The history of a record is linear

A signature that a record has lost is never given to it again, because every deed issues
a signature that was never issued before.  This is the one fact behind the main
statement of this module.  Of all changes of a record that expect one signature at most
one is accepted; a change that is accepted replaces the very row that its caller had
seen; and the deeds done to a record form one chain.
-/

namespace SealedDirectory

namespace Tables

variable {before after : Tables} {sight : Sight}

/-! ## Retired signatures -/

/-- A signature that was issued and that the record does not have any more. -/
def Retired
    (tables : Tables)
    (sight : Sight) :
    Prop :=
  tables.Registered sight.signature ∧ ¬ tables.Current sight

theorem Current.registered
    {tables : Tables}
    (current : tables.Current sight)
    (sound : tables.Sound) :
    tables.Registered sight.signature := by
  rcases current with ⟨row, stored, holds⟩
  have member := (sound.row?_eq_some_iff.mp stored).1
  exact sound.registered sight.kind row member sight.signature holds

namespace Undergoes

variable {deed : Deed}

/-- A deed gives its record a signature other than every one that was issued. -/
theorem not_current
    (does : Undergoes before deed after)
    (concerned : deed.concerns sight.kind sight.id = true)
    (issued : before.Registered sight.signature) :
    ¬ after.Current sight := by
  rintro ⟨row, stored, holds⟩
  obtain ⟨new, storedNew, renewed⟩ :=
    does.row?_of_concerned concerned
  have same : row = new :=
    Option.some.inj (stored.symm.trans storedNew)
  rw [same, renewed, Cell.holds.injEq] at holds
  rw [← holds] at issued
  exact does.fresh issued

/-- A deed to another record keeps what is current and what is not. -/
theorem current_iff_of_other
    (does : Undergoes before deed after)
    (other : deed.concerns sight.kind sight.id = false) :
    after.Current sight ↔ before.Current sight := by
  rw [Current, does.row?_of_other other, Current]

theorem current_of_changes
    (does : Undergoes before deed after)
    (changes : deed.changes sight = true) :
    before.Current sight := by
  cases does with
  | inserted inserted => cases changes
  | changed replaced =>
      rw [Deed.changes, decide_eq_true_eq] at changes
      subst changes
      exact ⟨_, replaced.row?_before, replaced.guarded⟩

/-- A retired signature stays retired, and no change expects it. -/
theorem retired
    (does : Undergoes before deed after)
    (retired : before.Retired sight) :
    after.Retired sight ∧ deed.changes sight = false := by
  have issued := (does.registered_iff sight.signature).mpr (.inl retired.1)
  refine ⟨⟨issued, ?_⟩, ?_⟩
  · by_cases concerned : deed.concerns sight.kind sight.id = true
    · exact does.not_current concerned retired.1
    · rw [does.current_iff_of_other (by simpa using concerned)]
      exact retired.2
  · by_contra changes
    have current := does.current_of_changes (by simpa using changes)
    exact retired.2 current

/-- A deed to a record that is there expects its signature. -/
theorem expects
    (does : Undergoes before deed after)
    {kind : RecordKind}
    {id : Uuid}
    {row : kind.Row}
    {signature : Signature}
    (concerned : deed.concerns kind id = true)
    (stored : before.row? kind id = some row)
    (holds : kind.signatureCell row = .holds signature) :
    deed.isInsertion = false ∧ deed.sight.signature = signature := by
  simp only [Deed.concerns, Bool.decide_and, Bool.and_eq_true,
    decide_eq_true_eq] at concerned
  rcases concerned with ⟨rfl, rfl⟩
  cases does with
  | inserted inserted =>
      have absent := inserted.row?_before.symm.trans stored
      cases absent
  | changed replaced =>
      have same := Option.some.inj (stored.symm.trans replaced.row?_before)
      subst same
      exact ⟨rfl, Cell.holds.inj (replaced.guarded.symm.trans holds)⟩

/-- Only an insertion is done to a record that is not there. -/
theorem inserts
    (does : Undergoes before deed after)
    {kind : RecordKind}
    {id : Uuid}
    (concerned : deed.concerns kind id = true)
    (absent : before.row? kind id = none) :
    deed.isInsertion = true := by
  simp only [Deed.concerns, Bool.decide_and, Bool.and_eq_true,
    decide_eq_true_eq] at concerned
  rcases concerned with ⟨rfl, rfl⟩
  cases does with
  | inserted inserted => rfl
  | changed replaced =>
      have present := absent.symm.trans replaced.row?_before
      cases present

/-- A deed to a record retires the signature that it had. -/
theorem retires
    (does : Undergoes before deed after)
    (concerned : deed.concerns sight.kind sight.id = true)
    (issued : before.Registered sight.signature) :
    after.Retired sight :=
  ⟨(does.registered_iff _).mpr (.inl issued),
    does.not_current concerned issued⟩

end Undergoes

theorem Rests.current_iff (idle : Rests before after) :
    after.Current sight ↔ before.Current sight := by
  rw [Current, idle.row?_eq, Current]

namespace Evolves

variable {deeds : List Deed}

theorem retired
    (evolves : Evolves before deeds after)
    (retired : before.Retired sight) :
    after.Retired sight ∧
      ∀ deed ∈ deeds, deed.changes sight = false := by
  induction evolves with
  | done => exact ⟨retired, by simp⟩
  | rests idle next ih =>
      apply ih
      rwa [Retired, idle.registered_iff, idle.current_iff]
  | undergoes does next ih =>
      rcases does.retired retired with ⟨still, unchanged⟩
      rcases ih still with ⟨last, others⟩
      refine ⟨last, ?_⟩
      intro deed member
      rcases List.mem_cons.mp member with rfl | inRest
      · exact unchanged
      · exact others deed inRest

theorem registered
    (evolves : Evolves before deeds after)
    {signature : Signature}
    (issued : before.Registered signature) :
    after.Registered signature := by
  induction evolves with
  | done => exact issued
  | rests idle next ih =>
      exact ih ((idle.registered_iff signature).mpr issued)
  | undergoes does next ih =>
      exact ih ((does.registered_iff signature).mpr (.inl issued))

/-- At most one change that expects a signature is accepted. -/
theorem countP_changes_le_one
    (evolves : Evolves before deeds after)
    (sound : before.Sound)
    (sight : Sight) :
    deeds.countP (Deed.changes sight) ≤ 1 := by
  induction evolves with
  | done => simp
  | rests idle next ih => exact ih (idle.sound sound)
  | @undergoes before middle after deed deeds does next ih =>
      by_cases changes : deed.changes sight = true
      · -- The first change that expects the signature retires it for the rest of the run.
        have issued := (does.current_of_changes changes).registered sound
        have retired := does.retires (Deed.concerns_of_changes changes) issued
        have none : deeds.countP (Deed.changes sight) = 0 := by
          rw [List.countP_eq_zero]
          intro deed member
          simp [(next.retired retired).2 deed member]
        rw [List.countP_cons_of_pos changes, none]
      · rw [List.countP_cons_of_neg changes]
        exact ih (does.sound sound)

/-- A row stays as it is until its signature is retired. -/
theorem row?_eq_or_retired
    (evolves : Evolves before deeds after)
    (sound : before.Sound)
    {row : sight.kind.Row}
    (stored : before.row? sight.kind sight.id = some row)
    (holds : sight.kind.signatureCell row = .holds sight.signature) :
    after.row? sight.kind sight.id = some row ∨ after.Retired sight := by
  induction evolves with
  | done => exact .inl stored
  | rests idle next ih =>
      apply ih (idle.sound sound)
      rw [idle.row?_eq, stored]
  | @undergoes before middle after deed deeds does next ih =>
      by_cases concerned : deed.concerns sight.kind sight.id = true
      · have issued := Current.registered ⟨row, stored, holds⟩ sound
        exact .inr (next.retired (does.retires concerned issued)).1
      · apply ih (does.sound sound)
        rw [does.row?_of_other (by simpa using concerned), stored]

/-- Only a current signature that was issued before can be expected by a change. -/
theorem current_of_changed
    (evolves : Evolves before deeds after)
    (issued : before.Registered sight.signature)
    {deed : Deed}
    (done : deed ∈ deeds)
    (changes : deed.changes sight = true) :
    before.Current sight := by
  by_contra notCurrent
  have unchanged := (evolves.retired ⟨issued, notCurrent⟩).2 deed done
  rw [changes] at unchanged
  cases unchanged

/-- What is done to a record that has a signature goes on from that signature. -/
theorem linked_from
    (evolves : Evolves before deeds after)
    {kind : RecordKind}
    {id : Uuid}
    {row : kind.Row}
    {signature : Signature}
    (stored : before.row? kind id = some row)
    (holds : kind.signatureCell row = .holds signature) :
    let done := deeds.filter (Deed.concerns kind id)
    (done.IsChain fun earlier next => next.Follows earlier) ∧
      ∀ deed ∈ done.head?,
        deed.isInsertion = false ∧ deed.sight.signature = signature := by
  induction evolves generalizing row signature with
  | done => exact ⟨.nil, by simp⟩
  | rests idle next ih =>
      apply ih _ holds
      rw [idle.row?_eq, stored]
  | @undergoes before middle after deed deeds does next ih =>
      by_cases concerned : deed.concerns kind id = true
      · obtain ⟨new, storedNew, renewed⟩ :=
          does.row?_of_concerned concerned
        rcases ih storedNew renewed with ⟨chain, first⟩
        rw [List.filter_cons_of_pos concerned]
        refine ⟨List.isChain_cons.mpr ⟨first, chain⟩, ?_⟩
        intro head isHead
        cases isHead
        exact does.expects concerned stored holds
      · rw [List.filter_cons_of_neg concerned]
        apply ih _ holds
        rw [does.row?_of_other (by simpa using concerned), stored]

/-- What is done to a record that is not there yet is a chain. -/
theorem isChain
    (evolves : Evolves before deeds after)
    {kind : RecordKind}
    {id : Uuid}
    (absent : before.row? kind id = none) :
    Deed.IsChain (deeds.filter (Deed.concerns kind id)) := by
  induction evolves with
  | done => exact ⟨by simp, .nil⟩
  | rests idle next ih =>
      apply ih
      rw [idle.row?_eq, absent]
  | @undergoes before middle after deed deeds does next ih =>
      by_cases concerned : deed.concerns kind id = true
      · obtain ⟨new, storedNew, renewed⟩ :=
          does.row?_of_concerned concerned
        rcases next.linked_from storedNew renewed with ⟨chain, first⟩
        rw [List.filter_cons_of_pos concerned]
        refine ⟨?_, List.isChain_cons.mpr ⟨first, chain⟩⟩
        intro head isHead
        cases isHead
        exact does.inserts concerned absent
      · rw [List.filter_cons_of_neg concerned]
        apply ih
        rw [does.row?_of_other (by simpa using concerned), absent]

end Evolves

end Tables

/-! ## The main statement -/

/--
In every run from an empty store, whatever its keys, its clock and its identifiers are:
of the changes of a record that expect one signature at most one is accepted; a change
that is accepted replaces exactly the row that was stored when its caller was shown the
record under the expected signature; and the deeds done to a record form one chain.
-/
theorem changes_are_linear (source : Source) :
    (∀ events sight,
      ((Session.founded source).history events).countP (Deed.changes sight) ≤ 1) ∧
    (∀ earlier seen between next sight,
      sight ∈ Event.sights ((Session.founded source).after earlier) seen →
      (∃ deed ∈ Event.deeds ((Session.founded source).after (earlier ++ seen :: between)) next,
        deed.changes sight = true) →
      ∃ row,
        ((Session.founded source).after (earlier ++ [seen])).tables.contents?
            sight.kind sight.id = some row ∧
        row.value "signature" = .text sight.signature.bare ∧
        ((Session.founded source).after (earlier ++ seen :: between)).tables.contents?
            sight.kind sight.id = some row) ∧
    ∀ events kind id,
      Deed.IsChain
        (((Session.founded source).history events).filter (Deed.concerns kind id)) := by
  have founded := Session.sound_founded source
  refine ⟨?_, ?_, ?_⟩
  · intro events sight
    exact (Session.evolves_after _ events founded).countP_changes_le_one founded sight
  · rintro earlier seen between next sight shows ⟨deed, done, changes⟩
    have soundThen := Session.sound_after source earlier
    have shown := Event.shown soundThen shows
    have soundSeen := (seen.evolves soundThen).sound soundThen
    have issued := shown.registered soundSeen
    rcases shown with ⟨row, stored, holds⟩
    have evolves := Session.evolves_after _ between soundSeen
    rw [Session.after_append, Session.after_append, Session.after_cons,
      Session.after_cons, Session.after_nil] at *
    have soundLater := evolves.sound soundSeen
    refine ⟨sight.kind.contents row, ?_, ?_, ?_⟩
    · rw [Tables.contents?, stored]
      rfl
    · rw [RecordKind.value_signature, holds]
      rfl
    · -- Had the row become another one, its signature would be retired by now.
      have current := (next.evolves soundLater).current_of_changed
        (evolves.registered issued) done changes
      rcases evolves.row?_eq_or_retired soundSeen stored holds with same | retired
      · rw [Tables.contents?, same]
        rfl
      · exact absurd current retired.2
  · intro events kind id
    apply (Session.evolves_after _ events founded).isChain
    exact Session.row?_founded source kind id

/-- A first change replaces the row that was stored when the record was created. -/
theorem first_change_replaces_what_was_seen :
    ∃ seen next sight row,
      sight ∈ Event.sights (Session.founded Sample.source) seen ∧
      (∃ deed ∈ Event.deeds ((Session.founded Sample.source).after [seen]) next,
        deed.changes sight = true) ∧
      ((Session.founded Sample.source).after [seen]).tables.contents?
        sight.kind sight.id = some row := by
  rcases Sample.begins with ⟨created, session, creates, first⟩
  obtain ⟨mutation, later, sets⟩ :=
    first.setOrgStatus_succeeds Sample.drawsApart_source .active
  let seen : Event := .performed Sample.ring (.createOrg Sample.newOrg)
  let next : Event := .performed Sample.ring
    (.setOrgStatus created.org.id created.org.stamp.signature .active)
  have reached : (Session.founded Sample.source).after [seen] = session := by
    rw [Session.after_cons, Session.after_nil, Event.step_performed creates]
  have shows : created.org.sight ∈ seen.sights (Session.founded Sample.source) := by
    rw [Event.sights_performed creates]
    exact List.mem_cons_self ..
  have done : ∃ deed ∈ next.deeds ((Session.founded Sample.source).after [seen]),
      deed.changes created.org.sight = true := by
    rw [reached, Event.deeds_performed sets]
    exact ⟨_, List.mem_singleton_self _, by simp [Deed.changes, Org.sight]⟩
  obtain ⟨row, stored, -⟩ :=
    (changes_are_linear Sample.source).2.1 [] seen [] next created.org.sight shows done
  exact ⟨seen, next, created.org.sight, row, shows, done, stored⟩

end SealedDirectory
