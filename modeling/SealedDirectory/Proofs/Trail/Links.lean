import SealedDirectory.Proofs.Directory.Issued
import SealedDirectory.Proofs.Directory.Places

/-!
# Links of the trail

The trail refers to records by their identifiers and to their states by signatures, and the
store declares no links for either.  Every change takes a signature from its record for good
and gives it one that was never issued.  So an entry names two issued signatures of which
the first is nobody's any more, and entries that share a signature are those of one change.
-/

namespace SealedDirectory

/-- Two entries tell of different columns in one change of one record. -/
structure Entry.Beside (entry other : Entry) : Prop where
  kind : entry.kind = other.kind
  entity : entry.entity = other.entity
  oldSignature : entry.oldSignature = other.oldSignature
  newSignature : entry.newSignature = other.newSignature
  oldTime : entry.oldTime = other.oldTime
  newTime : entry.newTime = other.newTime
  time : entry.time = other.time
  column : entry.column ≠ other.column

namespace Tables

variable {before after : Tables}

/-- The entries of the trail are tied to the records, to the registry and to each other. -/
structure Traced (tables : Tables) (entries : List Entry) : Prop where
  noted : tables.Noted entries
  stored : ∀ entry ∈ entries, ∃ id row,
    entry.entity = id.text ∧ tables.row? entry.kind id = some row
  differ : ∀ entry ∈ entries, entry.oldSignature ≠ entry.newSignature
  oldIssued : ∀ entry ∈ entries, tables.IssuedFor entry.kind entry.oldSignature
  newIssued : ∀ entry ∈ entries, tables.IssuedFor entry.kind entry.newSignature
  /-- No record has a signature that an entry tells to be an old one. -/
  lost : ∀ entry ∈ entries, ∀ kind, ∀ row ∈ tables.rows kind,
    kind.signatureCell row ≠ .holds entry.oldSignature
  /-- Entries that share a signature in one role tell of one change. -/
  beside : entries.Pairwise fun entry later =>
    entry.oldSignature = later.oldSignature ∨ entry.newSignature = later.newSignature →
      entry.Beside later
  /-- No change leads back to a signature that was lost before. -/
  onward : entries.Pairwise fun entry later => later.newSignature ≠ entry.oldSignature

/-! ## Signatures of the registry -/

theorem IssuedFor.registered
    {tables : Tables}
    {kind : RecordKind}
    {signature : Signature}
    (issued : tables.IssuedFor kind signature) :
    tables.Registered signature := by
  rcases issued with ⟨time, member⟩
  exact ⟨_, member, rfl⟩

theorem Undergoes.issuedFor
    {deed : Deed}
    {kind : RecordKind}
    {signature : Signature}
    (does : Undergoes before deed after)
    (issued : before.IssuedFor kind signature) :
    after.IssuedFor kind signature := by
  rcases issued with ⟨time, member⟩
  rcases does.registry_eq with ⟨now, grown⟩
  exact ⟨time, by rw [grown]; exact List.mem_append_left _ member⟩

/-- A deed issues its signature for records of its kind. -/
theorem Undergoes.issues
    {deed : Deed}
    (does : Undergoes before deed after) :
    after.IssuedFor deed.sight.kind deed.signature := by
  rcases does.registry_eq with ⟨time, grown⟩
  exact ⟨time, by rw [grown]; exact List.mem_append_right _ (List.mem_singleton_self _)⟩

/-- A signature that was issued and is nobody's does not come back. -/
theorem Undergoes.signature_ne
    {deed : Deed}
    {signature : Signature}
    (does : Undergoes before deed after)
    (issued : before.Registered signature)
    (lost : ∀ kind, ∀ row ∈ before.rows kind, kind.signatureCell row ≠ .holds signature) :
    ∀ kind, ∀ row ∈ after.rows kind, kind.signatureCell row ≠ .holds signature := by
  intro kind row member holds
  rcases (does.altered kind).mem member with old | ⟨-, -, renewed⟩
  · exact lost kind row old holds
  · have same : signature = deed.signature := Cell.holds.inj (holds.symm.trans renewed)
    exact does.fresh (same ▸ issued)

namespace Replaced

variable {sight : Sight} {signature : Signature} {entries : List Entry}
  {old new : sight.kind.Row}

/-- The record had the signature that was expected, which was issued for its kind. -/
theorem expected_issued
    (replaced : Replaced sight signature entries old new before after)
    (sound : before.Sound)
    (enrolled : before.Enrolled) :
    before.IssuedFor sight.kind sight.signature := by
  have member := replaced.old_mem_rows sound
  rcases enrolled.issued _ old member with ⟨found, holds, issued⟩
  obtain rfl : found = sight.signature := Cell.holds.inj (holds.symm.trans replaced.guarded)
  exact issued

theorem signature_ne_expected
    (replaced : Replaced sight signature entries old new before after)
    (sound : before.Sound)
    (enrolled : before.Enrolled) :
    sight.signature ≠ signature := by
  rintro rfl
  exact replaced.fresh (replaced.expected_issued sound enrolled).registered

/-- After a change no record of either kind has the signature that was expected. -/
theorem expected_lost
    (replaced : Replaced sight signature entries old new before after)
    (sound : before.Sound)
    (enrolled : before.Enrolled) :
    ∀ kind, ∀ row ∈ after.rows kind, kind.signatureCell row ≠ .holds sight.signature := by
  intro kind row member holds
  have differ := replaced.signature_ne_expected sound enrolled
  have expected := replaced.expected_issued sound enrolled
  have does := Undergoes.changed replaced
  have stored := replaced.old_mem_rows sound
  rcases (does.altered kind).mem member with wasThere | ⟨-, -, renewed⟩
  · -- The row was there with the expected signature, so it is the one that was replaced.
    rcases enrolled.issued kind row wasThere with ⟨found, holdsFound, issued⟩
    obtain rfl : found = sight.signature := Cell.holds.inj (holdsFound.symm.trans holds)
    obtain rfl : kind = sight.kind := enrolled.kind_eq issued expected
    obtain rfl : row = old :=
      sound.eq_of_signature wasThere stored (holds.trans replaced.guarded.symm)
    have still := (does.sound sound).row?_eq_some_iff.mpr ⟨member, replaced.id⟩
    have same := Option.some.inj (still.symm.trans replaced.row?_after)
    rw [same] at holds
    exact differ (Cell.holds.inj (holds.symm.trans replaced.renewed))
  · exact differ (Cell.holds.inj (holds.symm.trans renewed))

/-- Entries of one change agree in all but the column and what is told of it. -/
theorem beside
    (replaced : Replaced sight signature entries old new before after) :
    entries.Pairwise Entry.Beside := by
  have columns := List.pairwise_map.mp replaced.told.nodup
  rcases replaced.together with ⟨time, together⟩
  refine List.Pairwise.imp_of_mem ?_ columns
  intro entry other member otherMember differ
  have tells := replaced.told.each entry member
  have tellsToo := replaced.told.each other otherMember
  rcases replaced.signatures_eq entry member with ⟨oldSignature, newSignature⟩
  rcases replaced.signatures_eq other otherMember with ⟨otherOld, otherNew⟩
  exact {
    kind := tells.kind.trans tellsToo.kind.symm
    entity := tells.entity.trans tellsToo.entity.symm
    oldSignature := oldSignature.trans otherOld.symm
    newSignature := newSignature.trans otherNew.symm
    oldTime := Content.integer.inj (tells.oldTime.symm.trans tellsToo.oldTime)
    newTime := Content.integer.inj (tells.newTime.symm.trans tellsToo.newTime)
    time := (together entry member).trans (together other otherMember).symm
    column := differ }

end Replaced

/-! ## Links are kept -/

namespace Traced

variable {entries earlier : List Entry}

theorem empty : Tables.empty.Traced [] where
  noted := ⟨rfl, .nil, by simp⟩
  stored := by simp
  differ := by simp
  oldIssued := by simp
  newIssued := by simp
  lost := by simp
  beside := .nil
  onward := .nil

theorem rests
    (traced : before.Traced entries)
    (idle : Rests before after) :
    after.Traced entries where
  noted := idle.noted traced.noted
  stored := by
    intro entry member
    rcases traced.stored entry member with ⟨id, row, entity, found⟩
    exact ⟨id, row, entity, (idle.row?_eq _ _).trans found⟩
  differ := traced.differ
  oldIssued := by
    intro entry member
    rw [IssuedFor, idle.registry]
    exact traced.oldIssued entry member
  newIssued := by
    intro entry member
    rw [IssuedFor, idle.registry]
    exact traced.newIssued entry member
  lost := by
    intro entry member kind
    rw [idle.rows_eq]
    exact traced.lost entry member kind
  beside := traced.beside
  onward := traced.onward

theorem inserted
    {sight : Sight}
    {row : sight.kind.Row}
    (traced : before.Traced entries)
    (inserts : Inserted sight row before after)
    (sound : before.Sound) :
    after.Traced entries where
  noted := inserts.noted traced.noted
  stored := by
    intro entry member
    rcases traced.stored entry member with ⟨id, row, entity, found⟩
    rcases (inserts.continues sound).kept _ _ _ found with ⟨now, foundNow, -⟩
    exact ⟨id, now, entity, foundNow⟩
  differ := traced.differ
  oldIssued := fun entry member =>
    (Undergoes.inserted inserts).issuedFor (traced.oldIssued entry member)
  newIssued := fun entry member =>
    (Undergoes.inserted inserts).issuedFor (traced.newIssued entry member)
  lost := fun entry member =>
    (Undergoes.inserted inserts).signature_ne (traced.oldIssued entry member).registered
      (traced.lost entry member)
  beside := traced.beside
  onward := traced.onward

/-- A change adds entries that lead from a signature in use to one that was never issued. -/
theorem replaced
    {sight : Sight}
    {signature : Signature}
    {old new : sight.kind.Row}
    (traced : before.Traced earlier)
    (replaced : Replaced sight signature entries old new before after)
    (sound : before.Sound)
    (enrolled : before.Enrolled) :
    after.Traced (earlier ++ entries) := by
  have does := Undergoes.changed replaced
  have differ := replaced.signature_ne_expected sound enrolled
  have inTable := replaced.old_mem_rows sound
  -- Signatures of earlier entries are not the new one, and their old ones are nobody's.
  have oldNe (entry : Entry) (member : entry ∈ earlier) : entry.oldSignature ≠ signature := by
    rintro rfl
    exact replaced.fresh (traced.oldIssued entry member).registered
  have newNe (entry : Entry) (member : entry ∈ earlier) : entry.newSignature ≠ signature := by
    rintro rfl
    exact replaced.fresh (traced.newIssued entry member).registered
  have expectedNe (entry : Entry) (member : entry ∈ earlier) :
      entry.oldSignature ≠ sight.signature := by
    intro same
    exact traced.lost entry member _ old inTable (same ▸ replaced.guarded)
  constructor
  · exact replaced.noted sound traced.noted
  · intro entry member
    rcases List.mem_append.mp member with old | new
    · rcases traced.stored entry old with ⟨id, row, entity, found⟩
      rcases replaced.continues.kept _ _ _ found with ⟨now, foundNow, -⟩
      exact ⟨id, now, entity, foundNow⟩
    · have tells := replaced.told.each entry new
      rw [tells.kind, tells.entity]
      exact ⟨sight.id, _, rfl, replaced.row?_after⟩
  · intro entry member
    rcases List.mem_append.mp member with old | new
    · exact traced.differ entry old
    · rcases replaced.signatures_eq entry new with ⟨oldSignature, newSignature⟩
      rwa [oldSignature, newSignature]
  · intro entry member
    rcases List.mem_append.mp member with old | new
    · exact does.issuedFor (traced.oldIssued entry old)
    · rw [(replaced.told.each entry new).kind, (replaced.signatures_eq entry new).1]
      exact does.issuedFor (replaced.expected_issued sound enrolled)
  · intro entry member
    rcases List.mem_append.mp member with old | new
    · exact does.issuedFor (traced.newIssued entry old)
    · rw [(replaced.told.each entry new).kind, (replaced.signatures_eq entry new).2]
      exact does.issues
  · intro entry member
    rcases List.mem_append.mp member with old | new
    · exact does.signature_ne (traced.oldIssued entry old).registered (traced.lost entry old)
    · rw [(replaced.signatures_eq entry new).1]
      exact replaced.expected_lost sound enrolled
  · refine List.pairwise_append.mpr ⟨traced.beside, ?_, ?_⟩
    · apply replaced.beside.imp
      intro entry later beside _
      exact beside
    · rintro entry old later new (sameOld | sameNew)
      · exact absurd (sameOld.trans (replaced.signatures_eq later new).1) (expectedNe entry old)
      · exact absurd (sameNew.trans (replaced.signatures_eq later new).2) (newNe entry old)
  · refine List.pairwise_append.mpr ⟨traced.onward, ?_, ?_⟩
    · refine List.Pairwise.imp_of_mem ?_ replaced.beside
      intro entry later member laterMember _
      rw [(replaced.signatures_eq later laterMember).2, (replaced.signatures_eq entry member).1]
      exact differ.symm
    · intro entry old later new
      rw [(replaced.signatures_eq later new).2]
      exact (oldNe entry old).symm

theorem evolves
    {deeds : List Deed}
    (traced : before.Traced entries)
    (evolves : Evolves before deeds after)
    (sound : before.Sound)
    (enrolled : before.Enrolled) :
    ∃ entries, after.Traced entries := by
  induction evolves generalizing entries with
  | done => exact ⟨entries, traced⟩
  | rests idle next ih => exact ih (traced.rests idle) (idle.sound sound) (enrolled.rests idle)
  | undergoes does next ih =>
      have soundThen := does.sound sound
      have enrolledThen := enrolled.undergoes does
      cases does with
      | inserted inserts => exact ih (traced.inserted inserts sound) soundThen enrolledThen
      | changed replaced =>
          exact ih (traced.replaced replaced sound enrolled) soundThen enrolledThen

end Traced

end Tables

end SealedDirectory
