import SealedDirectory.Console.Answer
import SealedDirectory.Proofs.Directory.Creation
import SealedDirectory.Proofs.Ident.Kinds
import SealedDirectory.Proofs.Trail.Links

/-!
# Spellings of the identifier that is asked for

Requests read an identifier from every spelling of it.  The trail is searched for a text
instead: blanks around it and one mark are taken away, and what is left is compared with the
bare identifiers of the entries.  So of all the spellings that are read as one identifier
only two find its entries, the text with the mark and the bare text in the canonical form.
In any other spelling the search finds nothing, and nothing is said about it.
-/

namespace SealedDirectory

/-! ## The name that is wrapped around an identifier -/

namespace Uuid

theorem ofChars_urnMark (uuid : Uuid) :
    ofChars (urnMark ++ uuid.chars) = .ok uuid := by
  have sized : urnMark.length = 9 := by rfl
  have lower : urnMark.map Char.toLower = urnMark := by decide
  have noBrace : (urnMark ++ uuid.chars).head? ≠ some '\x7b' := by
    rw [List.head?_append_of_ne_nil _ (List.ne_nil_of_length_pos (by omega))]
    decide
  have wrapped : unwrap (urnMark ++ uuid.chars) = (uuid.chars, 9) := by
    rw [unwrap, if_neg fun braced => noBrace braced.1, List.take_left' sized, if_pos lower,
      List.drop_left' sized]
  simp [ofChars, wrapped]

end Uuid

namespace Id

variable {kind : IdKind}

/-- The bare text of an identifier behind the name of its format. -/
def urn (id : Id kind) : String :=
  String.ofList (Uuid.urnMark ++ id.uuid.chars)

theorem parse_urn (id : Id kind) :
    parse kind id.urn = .ok id := by
  have unmarked : withoutMark kind (Uuid.urnMark ++ id.uuid.chars) =
      Uuid.urnMark ++ id.uuid.chars := by
    refine if_neg fun isMarked => ?_
    have begins := List.prefix_iff_eq_take.mp (List.isPrefixOf_iff_prefix.mp isMarked)
    rw [kind.length_mark, List.take_append_of_le_length (by decide)] at begins
    revert begins
    cases kind <;> decide
  rw [parse, urn, String.toList_ofList, unmarked, Uuid.ofChars_urnMark]
  rfl

theorem trimmed_urn (id : Id kind) :
    Text.Trimmed id.urn := by
  apply Text.trimmed_of_solid
  intro char member
  rw [urn, String.toList_ofList, List.mem_append] at member
  have solid : Uuid.urnMark.all (fun char => !Text.isBlank char) = true := by decide
  rcases member with inMark | inChars
  · exact (Bool.not_eq_true' _).mp (List.all_eq_true.mp solid char inMark)
  · exact Uuid.isBlank_of_mem_chars inChars

/-- Behind the name of the format a text is longer than behind a mark or alone. -/
theorem urn_ne (id : Id kind) :
    id.urn ≠ id.display ∧ id.urn ≠ id.bare := by
  have sized : Uuid.urnMark.length = 9 := by rfl
  rw [urn, display, bare, Uuid.text, Ne, Ne, String.ofList_inj, String.ofList_inj]
  constructor
  all_goals
    intro same
    have lengths := congrArg List.length same
    simp only [List.length_append, sized, kind.length_mark] at lengths
    omega

end Id

/-! ## What is left of a spelling -/

namespace Console

variable {kind : RecordKind} {id : Id kind.idKind} {text : String}

/--
If a text is read as an identifier of a kind, then its mark is the only one that is taken
away, whichever is tried first.
-/
theorem bareId_eq
    (read : Id.parse kind.idKind (Text.trim text) = .ok id) :
    bareId text =
      String.ofList (Id.withoutMark kind.idKind (Text.trimChars text.toList)) := by
  rw [Id.parse, Text.trim_eq_ofList] at read
  -- What begins with the mark of another kind is not read.
  have unmarked (other : IdKind) (differ : kind.idKind ≠ other) :
      ¬ other.mark.isPrefixOf (Text.trimChars text.toList) = true := by
    intro isMarked
    obtain ⟨rest, split⟩ := List.isPrefixOf_iff_prefix.mp isMarked
    obtain ⟨fault, refused⟩ := Id.exists_ofChars_mark_eq_error other rest
    rw [← split, Id.withoutMark_other differ, refused] at read
    cases read
  cases kind with
  | org =>
      have noUser := unmarked .user (by decide)
      by_cases isOrg : IdKind.org.mark.isPrefixOf (Text.trimChars text.toList) = true
      · exact if_pos isOrg
      · rw [bareId, if_neg isOrg, Id.withoutMark, if_neg noUser, RecordKind.idKind,
          Id.withoutMark, if_neg isOrg]
  | user => exact if_neg (unmarked .org (by decide))

/-- What is left of a spelling is still read as the identifier. -/
theorem parse_bareId
    (read : Id.parse kind.idKind (Text.trim text) = .ok id) :
    Uuid.parse (bareId text) = .ok id.uuid := by
  rw [bareId_eq read, Uuid.parse, String.toList_ofList, ← Text.trim_eq_ofList]
  rw [Id.parse] at read
  cases found : Uuid.ofChars (Id.withoutMark kind.idKind (Text.trim text).toList) with
  | ok uuid =>
      rw [found] at read
      rw [← Except.ok.inj read]
  | error fault =>
      rw [found] at read
      cases read

/-- Two spellings lead to the bare text of an identifier. -/
theorem bareId_eq_bare_iff
    (read : Id.parse kind.idKind (Text.trim text) = .ok id) :
    bareId text = id.bare ↔ Text.trim text = id.display ∨ Text.trim text = id.bare := by
  rw [bareId_eq read, Id.bare, Uuid.text, Id.display, Text.trim, String.ofList_inj,
    String.ofList_inj, String.ofList_inj]
  constructor
  · intro left
    rw [Id.withoutMark] at left
    split at left
    next isMarked =>
      obtain ⟨rest, split⟩ := List.isPrefixOf_iff_prefix.mp isMarked
      rw [← split, List.drop_left] at left
      exact .inl (by rw [← split, left])
    next => exact .inr left
  · rintro (marked | bare)
    · rw [marked, Id.withoutMark_mark]
    · rw [bare, Id.withoutMark_chars]

/-- If what is left of a spelling is a bare identifier, then it is the one that is read. -/
theorem bareId_eq_text
    {uuid : Uuid}
    (read : Id.parse kind.idKind (Text.trim text) = .ok id)
    (left : bareId text = uuid.text) :
    uuid = id.uuid := by
  have found := parse_bareId read
  rw [left, Uuid.parse_text] at found
  exact Except.ok.inj found

end Console

/-! ## What is found -/

/-- No entry is selected if none is about the record that is asked for. -/
theorem TrailFilter.select_eq_nil
    {filter : TrailFilter}
    {entries : List Entry}
    {entity : String}
    (asked : filter.entity = some entity)
    (other : ∀ entry ∈ entries, entry.entity ≠ entity) :
    filter.select entries = [] := by
  rw [List.eq_nil_iff_forall_not_mem]
  intro entry member
  have admitted := (List.mem_filter.mp (List.mem_mergeSort.mp
    ((filter.cut_sublist _).subset member))).2
  rw [admits, asked, Bool.and_eq_true, Bool.and_eq_true] at admitted
  have same : entity = (EntryRow.ofEntry entry).entity := by simpa using admitted.1.2
  exact other entry (mem_of_mem_select member) same.symm

namespace Console

variable {kind : RecordKind} {id : Id kind.idKind} {text : String}

/-- A search is answered by the entries that its filter selects. -/
theorem trailTable_gives
    {session : Session}
    {entries : List Entry}
    {table : Option String}
    {asked : Option RecordKind}
    (noted : session.tables.Noted entries)
    (asks : readTable table = .ok asked)
    (text column : Option String)
    (limit : Option Nat) :
    (trailTable table text column limit).Gives session
      (Listing.trail (TrailFilter.select
        { kind := asked, entity := text.map bareId, column, limit } entries)) session := by
  have found := Tables.entries_eq_select noted.trail
    (fun entry member => (noted.plain entry member).legible)
    { kind := asked, entity := text.map bareId, column, limit }
  rw [trailTable, asks]
  exact Work.gives_bind.mpr ⟨_, _, Work.gives_ask.mpr ⟨found, rfl⟩, Work.pure_succeeds _ _⟩

/-- In a trail of records a spelling finds no entries of another identifier. -/
theorem select_bareId_eq_nil
    {tables : Tables}
    {entries : List Entry}
    (traced : tables.Traced entries)
    (read : Id.parse kind.idKind (Text.trim text) = .ok id)
    (missed : bareId text ≠ id.bare)
    (asked : Option RecordKind)
    (column : Option String)
    (limit : Option Nat) :
    TrailFilter.select { kind := asked, entity := some (bareId text), column, limit } entries =
      [] := by
  refine TrailFilter.select_eq_nil rfl fun entry member same => missed ?_
  obtain ⟨uuid, -, isText, -⟩ := traced.stored entry member
  have left : bareId text = uuid.text := same.symm.trans isText
  rw [left, bareId_eq_text read left, Id.bare]

end Console

/-! ## The main statement -/

/--
After any run from an empty store the trail is searched without a failure.  A text that is
read as an identifier finds the entries of this identifier if it is, up to blanks around it,
the text with the mark or the bare text; in every other spelling it finds none.
-/
theorem searches_find_an_identifier_in_two_spellings
    (source : Source)
    (events : List Event)
    {kind : RecordKind}
    {id : Id kind.idKind}
    {text : String}
    {table : Option String}
    {asked : Option RecordKind}
    (read : Id.parse kind.idKind (Text.trim text) = .ok id)
    (asks : Console.readTable table = .ok asked) :
    let begun := (Session.founded source).after events
    (Console.bareId text = id.bare ↔
      Text.trim text = id.display ∨ Text.trim text = id.bare) ∧
    ∃ entries, begun.tables.Noted entries ∧ ∀ column limit,
      (Console.trailTable table (some text) column limit).Gives begun
        (Listing.trail
          (if Text.trim text = id.display ∨ Text.trim text = id.bare then
            TrailFilter.select { kind := asked, entity := some id.bare, column, limit } entries
          else [])) begun := by
  obtain ⟨entries, traced⟩ := Tables.Traced.empty.evolves
    (Session.evolves_from_empty source events) .empty .empty
  have spelled := Console.bareId_eq_bare_iff read
  refine ⟨spelled, entries, traced.noted, fun column limit => ?_⟩
  have found := Console.trailTable_gives traced.noted asks (some text) column limit
  rw [Option.map_some] at found
  split
  next either => rwa [spelled.mpr either] at found
  next neither =>
      rwa [Console.select_bareId_eq_nil traced read (mt spelled.mp neither)] at found

/-- The owner of the first organization is found by its identifier with blanks around it. -/
theorem first_owner_is_found :
    ∃ (owner : UserId) (text : String),
      Id.parse .user (Text.trim text) = .ok owner ∧
      Console.readTable none = .ok none ∧
      text ≠ owner.display ∧ Console.bareId text = owner.bare := by
  let owner : UserId := ⟨(Session.founded Sample.source).uuidAhead 1⟩
  have trimmed : Text.trim (" " ++ owner.display) = owner.display := by
    decide +kernel
  have read : Id.parse RecordKind.user.idKind (Text.trim (" " ++ owner.display)) =
      .ok owner := by
    rw [trimmed]
    exact Id.parse_display owner
  have all : Console.readTable none = .ok none := rfl
  have found := searches_find_an_identifier_in_two_spellings Sample.source Sample.founding
    read all
  refine ⟨owner, _, read, all, ?_, found.1.mpr (.inl trimmed)⟩
  decide +kernel

/-- All that is noted when the first organization is created is the promotion of its owner. -/
theorem Sample.traced_founding :
    ∃ (owner : UserId) (entry : Entry),
      ((Session.founded source).after founding).tables.Traced [entry] ∧
      entry.entity = owner.bare := by
  rcases Sample.begins with ⟨created, session, performs, -⟩
  have reached : (Session.founded Sample.source).after Sample.founding = session := by
    rw [Sample.founding, Session.after_cons, Session.after_nil, Event.step_performed performs]
  simp only [Request.perform, Work.gives_bind, Work.gives_pure] at performs
  obtain ⟨_, _, creates, same, rfl⟩ := performs
  cases same
  obtain ⟨unconfirmed, texts, promotion, establishes⟩ :=
    Directory.createOrg_establishes (Session.sound_founded Sample.source) creates
  obtain ⟨entries, traced⟩ := Tables.Traced.empty.evolves
    (Session.evolves_from_empty Sample.source Sample.founding) .empty .empty
  rw [reached] at traced ⊢
  have trail := traced.noted.trail
  rw [establishes.tables, Tables.establishing, (Session.blank_founded Sample.source).trail,
    List.nil_append, eq_comm, List.map_eq_singleton_iff] at trail
  obtain ⟨entry, rfl, isPromotion⟩ := trail
  rw [establishes.told] at isPromotion
  exact ⟨created.owner.id, entry, traced, congrArg EntryRow.entity isPromotion⟩

/--
The owner of the first organization is read from its identifier behind the name of the
format.  Its entry is found by the text with the mark, but not by this one.
-/
theorem named_identifier_finds_nothing :
    ∃ (owner : UserId) (entry : Entry),
      let begun := (Session.founded Sample.source).after Sample.founding
      begun.tables.Noted [entry] ∧ entry.entity = owner.bare ∧
      (Console.readUserId owner.urn).Gives begun owner begun ∧
      Console.bareId owner.urn ≠ owner.bare ∧
      (Console.trailTable none (some owner.display) none none).Gives begun
        (Listing.trail [entry]) begun ∧
      (Console.trailTable none (some owner.urn) none none).Gives begun
        "No audit records found." begun := by
  obtain ⟨owner, entry, traced, entity⟩ := Sample.traced_founding
  have all : Console.readTable none = .ok none := rfl
  have marked : Id.parse RecordKind.user.idKind (Text.trim owner.display) = .ok owner := by
    rw [Id.trimmed_display]
    exact Id.parse_display owner
  have named : Id.parse RecordKind.user.idKind (Text.trim owner.urn) = .ok owner := by
    rw [Id.trimmed_urn]
    exact Id.parse_urn owner
  have kept : Console.bareId owner.display = owner.bare :=
    (Console.bareId_eq_bare_iff marked).mpr (.inl owner.trimmed_display)
  have lost : Console.bareId owner.urn ≠ owner.bare := by
    refine mt (Console.bareId_eq_bare_iff named).mp ?_
    rw [Id.trimmed_urn]
    exact not_or.mpr owner.urn_ne
  have shown := Console.trailTable_gives traced.noted all (some owner.display) none none
  have missed := Console.trailTable_gives traced.noted all (some owner.urn) none none
  have chosen : TrailFilter.select { entity := some owner.bare } [entry] = [entry] := by
    simp [TrailFilter.select, TrailFilter.cut, TrailFilter.admits, EntryRow.ofEntry, entity]
  rw [Option.map_some, kept, chosen] at shown
  rw [Option.map_some, Console.select_bareId_eq_nil traced named lost] at missed
  refine ⟨owner, entry, traced.noted, entity, ?_, lost, shown, missed⟩
  rw [Console.readUserId, show Id.parse .user (Text.trim owner.urn) = .ok owner from named]
  exact Work.pure_succeeds _ _

end SealedDirectory
