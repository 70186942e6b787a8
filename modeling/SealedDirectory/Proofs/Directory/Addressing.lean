import SealedDirectory.Proofs.Directory.Ruling

/-!
# How organizations are addressed

A caller may address an organization by its name or by the text of its identifier.  Both are
looked up in one place, and names come first: a text is taken for an identifier only if no
organization is named so.

Names are trimmed and differ from each other in every store that a run reaches, so a name
always finds the organization that has it.  The text of an identifier can be the name of
another organization, for a name may be any short text.  Then it finds that one.
-/

namespace SealedDirectory

open Tables

/-! ## Lookup by name -/

namespace Tables

variable {tables : Tables} {org : Org} {name : String}

theorem orgNamed?_of_mem
    (unambiguous : tables.Unambiguous)
    (stored : OrgRow.ofOrg org ∈ tables.orgs) :
    tables.orgNamed? org.name = .ok (some org) := by
  rcases List.append_of_mem stored with ⟨earlier, later, placed⟩
  have others : ∀ row ∈ earlier, ¬ decide (row.name = org.name) = true := by
    intro row member same
    exact unambiguous.named_otherwise placed row (List.mem_append_left _ member)
      (of_decide_eq_true same)
  have found : tables.orgs.find? (fun row => row.name = org.name) = some (OrgRow.ofOrg org) := by
    rw [placed, List.find?_append, List.find?_eq_none.mpr others, List.find?_cons]
    simp [OrgRow.ofOrg]
  exact mapM_eq_ok_some.mpr ⟨_, found, OrgRow.toOrg_ofOrg org⟩

theorem orgNamed?_of_unnamed
    (unnamed : ∀ row ∈ tables.orgs, row.name ≠ name) :
    tables.orgNamed? name = .ok none := by
  have found : tables.orgs.find? (fun row => row.name = name) = none :=
    List.find?_eq_none.mpr fun row member same => unnamed row member (of_decide_eq_true same)
  rw [orgNamed?, found]
  rfl

theorem Sound.org?_of_mem
    (sound : tables.Sound)
    (stored : OrgRow.ofOrg org ∈ tables.orgs) :
    tables.org? org.id = .ok (some org) :=
  org?_of_row? (sound.row?_eq_some_iff.mpr ⟨stored, rfl⟩)

end Tables

/-! ## Lookup by a text -/

namespace Directory

variable {session : Session} {org : Org} {text : String}

/-- A text without blanks around it finds the organization that is named so. -/
theorem findOrg?_of_named
    (unambiguous : session.tables.Unambiguous)
    (stored : OrgRow.ofOrg org ∈ session.tables.orgs)
    (trimmed : Text.Trimmed text)
    (named : org.name = text) :
    (findOrg? text).Gives session (some org) session := by
  have asked : session.tables.orgNamed? (Text.trim text) = .ok (some org) := by
    rw [trimmed, ← named]
    exact orgNamed?_of_mem unambiguous stored
  have looks : (orgNamed? text).Gives session (some org) session :=
    Work.gives_ask.mpr ⟨asked, rfl⟩
  exact looks.bind (Work.pure_succeeds session (some org))

/-- If no organization is named so, the text of an identifier finds its organization. -/
theorem findOrg?_of_unnamed
    (sound : session.tables.Sound)
    (stored : OrgRow.ofOrg org ∈ session.tables.orgs)
    (trimmed : Text.Trimmed text)
    (parsed : Id.parse .org text = .ok org.id)
    (unnamed : ∀ row ∈ session.tables.orgs, row.name ≠ text) :
    (findOrg? text).Gives session (some org) session := by
  have none : session.tables.orgNamed? (Text.trim text) = .ok none := by
    rw [trimmed]
    exact orgNamed?_of_unnamed unnamed
  have looks : (orgNamed? text).Gives session Option.none session :=
    Work.gives_ask.mpr ⟨none, rfl⟩
  refine looks.bind ?_
  rw [parsed]
  exact Work.gives_ask.mpr ⟨sound.org?_of_mem stored, rfl⟩

end Directory

/-! ## Another organization under the identifier of the first one -/

/-- A new organization is stored under its name. -/
theorem Directory.createOrg_stores
    {ring : KeyRing}
    {new : NewOrg}
    {created : CreatedOrg}
    {before after : Session}
    (sound : before.tables.Sound)
    (given : (createOrg ring new).Gives before created after) :
    after.tables.orgs = before.tables.orgs ++ [OrgRow.ofOrg created.org] := by
  rcases createOrg_gives given with ⟨inserted, middle, final, inserts, promotes, rfl⟩
  rcases insertOrg_gives inserts with ⟨ownerTables, texts, owner, org, -⟩
  have soundThen := (Undergoes.inserted org).sound ((Undergoes.inserted owner).sound sound)
  rcases promoteOwner_gives promotes with ⟨promotion, mutates, rfl⟩
  rcases Work.mutate_gives (Work.looksAtRecord_pure _) soundThen mutates with
    ⟨old, newRow, promoted⟩
  have otherKind : RecordKind.org ≠ .user := by decide
  have orgs : middle.tables.orgs = before.tables.orgs ++ [OrgRow.ofOrg inserted.org] :=
    org.rows_eq.trans (congrArg (· ++ _) (owner.rows_of_ne otherKind))
  exact promoted.userRewritten.orgs.trans orgs

namespace Sample

/-- The identifier that the first organization gets. -/
def firstId : OrgId := ⟨(Session.founded source).uuidAhead 0⟩

/-- A second organization is named by the identifier of the first one. -/
def shadowing : List Event :=
  founding ++ [.performed ring (.createOrg { newOrg with name := firstId.display })]

end Sample

/--
If another organization is named by the identifier of the first one, then the identifier of
the first one finds the other one.
-/
theorem identifier_finds_the_organization_that_is_named_so :
    ∃ first other : Org,
      let begun := (Session.founded Sample.source).after Sample.shadowing
      OrgRow.ofOrg first ∈ begun.tables.orgs ∧ OrgRow.ofOrg other ∈ begun.tables.orgs ∧
      other ≠ first ∧
      (Directory.findOrg? first.id.display).Gives begun (some other) begun := by
  rcases Sample.drawsNew_founding with ⟨created, first, firstId, firstName, unused⟩
  have regular := Session.regular_after Sample.source Sample.founding
  have linked := linked_after Sample.source Sample.founding
  let new : NewOrg := { Sample.newOrg with name := Sample.firstId.display }
  -- The second organization is accepted, since its name is proper and not taken.
  have accepted : Work.outcome (Directory.createOrg Sample.ring new)
      ((Session.founded Sample.source).after Sample.founding) = .ok () := by
    have proper : unlessImproper (Text.trim new.name) = .ok () := by decide +kernel
    have passes : new.owner.unlessUnfit = .ok () := by decide +kernel
    have differ : ¬ Text.trim Sample.newOrg.name = Text.trim new.name := by decide +kernel
    rw [Directory.outcome_createOrg Sample.ring new regular linked unused, judgeNewOrg, proper,
      passes, first.org]
    simp [unlessNamed, OrgRow.ofOrg, firstName, differ, bind, Except.bind]
  rcases Work.gives_of_outcome accepted with ⟨other, after, creates⟩
  have orgs := Directory.createOrg_stores regular.sound creates
  rcases Directory.createOrg_org creates with ⟨-, otherName⟩
  have performed : ((Request.createOrg new).perform Sample.ring).Gives
      ((Session.founded Sample.source).after Sample.founding) (.created other) after :=
    creates.bind (Work.pure_succeeds _ _)
  have reached : (Session.founded Sample.source).after Sample.shadowing = after := by
    rw [Sample.shadowing, Session.after_append, Session.after_cons, Session.after_nil,
      Event.step_performed performed]
  have regularThen := Session.regular_after Sample.source Sample.shadowing
  rw [reached] at regularThen ⊢
  rw [first.org] at orgs
  have stored : OrgRow.ofOrg other.org ∈ after.tables.orgs := by simp [orgs]
  have trimmed : Text.Trimmed created.org.id.display := Id.trimmed_display _
  have named : other.org.name = created.org.id.display := by
    rw [otherName, firstId]
    exact Id.trimmed_display Sample.firstId
  refine ⟨created.org, other.org, by simp [orgs], stored, ?_,
    Directory.findOrg?_of_named regularThen.unambiguous stored trimmed named⟩
  intro same
  have differ : Text.trim new.name ≠ Text.trim Sample.newOrg.name := by decide +kernel
  exact differ (otherName.symm.trans ((congrArg Org.name same).trans firstName))

/-! ## The main statement -/

/--
In every store that a run from an empty store reaches every organization can be read, and its
name finds it.  The text of its identifier, with its mark or without it, finds the
organization that is named so, if there is one, and otherwise the organization itself.
-/
theorem organizations_are_found_by_name_and_then_by_identifier
    (source : Source)
    (events : List Event)
    {row : OrgRow}
    (stored : row ∈ ((Session.founded source).after events).tables.orgs) :
    let begun := (Session.founded source).after events
    ∃ org, row.toOrg = .ok org ∧
      (Directory.findOrg? org.name).Gives begun (some org) begun ∧
      ∀ text ∈ [org.id.display, org.id.bare],
        (∀ other ∈ begun.tables.orgs, other.name = text →
          ∃ found, other.toOrg = .ok found ∧
            (Directory.findOrg? text).Gives begun (some found) begun) ∧
        ((∀ other ∈ begun.tables.orgs, other.name ≠ text) →
          (Directory.findOrg? text).Gives begun (some org) begun) := by
  have regular := Session.regular_after source events
  have proper : Text.Trimmed row.name := ((linked_after source events).proper _ stored).trimmed
  rcases regular.sound.written .org row stored with ⟨org, rfl⟩
  refine ⟨org, rfl, Directory.findOrg?_of_named regular.unambiguous stored proper rfl, ?_⟩
  intro text isText
  have reads : Text.Trimmed text ∧ Id.parse .org text = .ok org.id := by
    rw [List.mem_pair] at isText
    rcases isText with rfl | rfl
    · exact ⟨Id.trimmed_display org.id, Id.parse_display org.id⟩
    · exact ⟨Id.trimmed_bare org.id, Id.parse_bare org.id⟩
  constructor
  · intro other isStored named
    rcases regular.sound.written .org other isStored with ⟨found, rfl⟩
    exact ⟨found, rfl, Directory.findOrg?_of_named regular.unambiguous isStored reads.1 named⟩
  · exact Directory.findOrg?_of_unnamed regular.sound stored reads.1 reads.2

/-- The first organization is found by its identifier as long as no other one is named so. -/
theorem first_organization_is_found_by_its_identifier :
    ∃ org : Org,
      let begun := (Session.founded Sample.source).after Sample.founding
      OrgRow.ofOrg org ∈ begun.tables.orgs ∧
      (Directory.findOrg? org.id.display).Gives begun (some org) begun := by
  rcases Sample.drawsNew_founding with ⟨created, first, firstId, name, -⟩
  have stored : OrgRow.ofOrg created.org ∈
      ((Session.founded Sample.source).after Sample.founding).tables.orgs := by
    rw [first.org]
    exact List.mem_singleton_self _
  have found := organizations_are_found_by_name_and_then_by_identifier Sample.source
    Sample.founding stored
  rcases found with ⟨org, read, -, found⟩
  obtain rfl := Except.ok.inj read
  refine ⟨created.org, stored, (found _ (List.mem_cons_self ..)).2 ?_⟩
  have differ : Text.trim Sample.newOrg.name ≠ Sample.firstId.display := by decide +kernel
  intro other member same
  rw [first.org] at member
  obtain rfl := List.mem_singleton.mp member
  rw [firstId] at same
  exact differ (name.symm.trans same)

end SealedDirectory
