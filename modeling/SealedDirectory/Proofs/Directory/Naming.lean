import SealedDirectory.Proofs.Directory.Collision
import SealedDirectory.Proofs.Directory.Linked

/-!
# Names that are taken

Of the columns of an organization that must be unique only the name is chosen by a caller.
If what is drawn is fresh, then the identifier, the signature and the place agree with those
of no other organization, so an organization is written unless another one has its name.

This settles what comes of a change of an organization, and of a new organization with its
owner.  The owner cannot be in the way: nobody is a member of an organization yet whose
identifier was just drawn, the row that is inserted opens to what was sealed in it, and the
promotion that follows leaves alone what must be unique.
-/

namespace SealedDirectory

open Tables

/-! ## Names that collide -/

/-- What writing an organization of this name comes to beside other organizations. -/
def unlessNamed
    (others : List OrgRow)
    (name : String) :
    Except Fault Unit :=
  if others.any fun row => row.name == name then .error (.taken ["orgs.name"]) else .ok ()

/-- An organization agrees with others in nothing that must be unique, the name left aside. -/
structure OrgRow.Distinct
    (row : OrgRow)
    (others : List OrgRow) :
    Prop where
  signature : ∀ other ∈ others, row.signature.clashes other.signature = false
  order : ∀ other ∈ others, row.order.clashes other.order = false
  id : ∀ other ∈ others, row.id.clashes other.id = false

/-- An organization that is distinct from others breaks a rule only by its name. -/
theorem OrgRow.Distinct.brokenUnique?_eq
    {row : OrgRow}
    {others : List OrgRow}
    (distinct : row.Distinct others) :
    brokenUnique? OrgRow.uniques row others =
      if others.any fun other => other.name == row.name then some ["orgs.name"] else none := by
  have names : (others.any fun other => decide (row.name = other.name)) =
      others.any fun other => other.name == row.name := by
    congr 1
    funext other
    rw [Bool.eq_iff_iff, decide_eq_true_eq, beq_iff_eq]
    exact eq_comm
  have signature : (others.any fun other => row.signature.clashes other.signature) = false := by
    simpa using distinct.signature
  have order : (others.any fun other => row.order.clashes other.order) = false := by
    simpa using distinct.order
  have id : (others.any fun other => row.id.clashes other.id) = false := by
    simpa using distinct.id
  simp only [brokenUnique?, OrgRow.uniques, List.find?_cons, List.find?_nil, signature, order, id,
    names]
  split
  · next taken => rw [if_pos taken]; rfl
  · next free => rw [if_neg (by simp [free])]; rfl

section

variable
  {tables : Tables}
  {earlier later : List OrgRow}
  {old new : OrgRow}
  {signature : Signature}

/-- A stored organization stays distinct from all others under a fresh signature. -/
theorem Tables.Unambiguous.distinct_renewedOrg
    (unambiguous : tables.Unambiguous)
    (sound : tables.Sound)
    (placed : tables.orgs = earlier ++ old :: later)
    (sameId : new.id = old.id)
    (sameOrder : new.order = old.order)
    (renewed : new.signature = .holds signature)
    (fresh : ¬ tables.Registered signature) :
    new.Distinct (earlier ++ later) := by
  have apart : Apart OrgRow.uniques { old with signature := .holds signature }
      (earlier ++ later) :=
    unambiguous.apart_renewedOrg sound placed rfl rfl rfl rfl fresh
  constructor
  · rw [renewed]
    exact apart _ (List.mem_of_getElem? (i := 0) rfl)
  · rw [sameOrder]
    exact apart _ (List.mem_of_getElem? (i := 1) rfl)
  · rw [sameId]
    exact apart _ (List.mem_of_getElem? (i := 3) rfl)

/-- The other organizations are those that stand around one of them. -/
theorem Tables.Sound.otherOrgs_eq
    {org : Org}
    (sound : tables.Sound)
    (placed : tables.orgs = earlier ++ OrgRow.ofOrg org :: later) :
    (tables.orgs.filter fun row => row.id ≠ .holds org.id) = earlier ++ later := by
  have others : ∀ row ∈ earlier ++ later, row.id ≠ .holds org.id :=
    sound.others_ne .org placed rfl
  rw [placed, List.filter_append, List.filter_cons_of_neg (by simp [OrgRow.ofOrg]),
    ← List.filter_append, List.filter_eq_self]
  exact fun row member => decide_eq_true (others row member)

/-- The organizations around one of them have other names. -/
theorem Tables.Unambiguous.named_otherwise
    (unambiguous : tables.Unambiguous)
    (placed : tables.orgs = earlier ++ old :: later) :
    ∀ row ∈ earlier ++ later, row.name ≠ old.name := by
  have names := unambiguous.nodup_names
  rw [placed, List.map_append, List.map_cons, List.nodup_middle, List.nodup_cons,
    ← List.map_append] at names
  intro row member same
  exact names.1 (List.mem_map.mpr ⟨row, member, same⟩)

/-- A stored organization has a name that no other one has. -/
theorem Tables.Regular.unlessNamed_stored
    {org : Org}
    (regular : tables.Regular)
    (stored : OrgRow.ofOrg org ∈ tables.orgs) :
    unlessNamed (tables.orgs.filter fun row => row.id ≠ .holds org.id) org.name = .ok () := by
  rcases List.append_of_mem stored with ⟨earlier, later, placed⟩
  have others := regular.unambiguous.named_otherwise placed
  have unnamed : ((earlier ++ later).any fun row => row.name == org.name) = false := by
    rw [List.any_eq_false]
    intro row member same
    exact others row member (beq_iff_eq.mp same)
  rw [regular.sound.otherOrgs_eq placed, unlessNamed, if_neg (by simp [unnamed])]

end

/-- An organization is not written over its row if its new row breaks a rule among the others. -/
theorem Org.overwrite_collides
    (ring : KeyRing)
    {expected : Signature}
    (session : Session)
    (org : Org)
    (earlier later : List OrgRow)
    {old : OrgRow}
    {columns : List String}
    (placed : session.tables.orgs = earlier ++ old :: later)
    (id : old.id = .holds org.id)
    (guarded : old.signature = .holds expected)
    (others : ∀ row ∈ earlier ++ later, row.id ≠ .holds org.id)
    (broken : brokenUnique? OrgRow.uniques (old.overwritten org) (earlier ++ later) =
      some columns) :
    (Versioned.overwrite ring org expected).Fails session (.taken columns) session := by
  have updated := updateRows_broken
    (fun row : OrgRow => row.id = .holds org.id ∧ row.signature = .holds expected)
    (fun row => .ok (row.overwritten org))
    (by simp [id, guarded]) (fun row member => by simp [others row member]) rfl broken
  have refused : session.tables.updateOrg org expected = .error (.taken columns) := by
    rw [Tables.updateOrg, placed]
    exact congrArg (· >>= _) updated
  have ran : (Versioned.overwrite ring org expected).runIn session = _ :=
    Work.runIn_answer _ session
  rw [Work.Fails, ran, refused]

/-! ## Changes of an organization -/

/-- A change of an organization gives it a name that is taken, or is not admitted, or succeeds. -/
theorem Work.outcome_mutateOrg
    {ring : KeyRing}
    {id : OrgId}
    {expected : Signature}
    {change : Org → Work Org}
    {edit : Org → Except Fault Org}
    {session : Session}
    (edits : Edits change edit)
    (sameId : ∀ loaded changed, edit loaded = .ok changed → changed.id = loaded.id)
    (regular : session.tables.Regular)
    (fresh : ¬ session.tables.Registered ⟨session.uuidAhead 0⟩) :
    (mutate ring id expected change).outcome session =
      admitted edit ring id expected session.tables >>= fun (_, changed) =>
        unlessNamed (session.tables.orgs.filter fun row => row.id ≠ .holds id) changed.name := by
  cases allowed : admitted edit ring id expected session.tables with
  | error fault => exact (mutate_refused edits allowed).outcome_eq
  | ok pair =>
      rcases pair with ⟨loaded, changed⟩
      rcases admitted_eq_ok allowed with ⟨found, rfl, edited⟩
      have sound := regular.sound
      have stored := org?_eq_some (sound.written .org) found
      have holds := (sound.row?_eq_some_iff.mp stored).2
      obtain rfl : loaded.id = id := Cell.holds.inj holds
      have member : OrgRow.ofOrg loaded ∈ session.tables.orgs :=
        (sound.row?_eq_some_iff.mp stored).1
      rcases List.append_of_mem member with ⟨earlier, later, placed⟩
      let record := renewal ring session loaded changed
      let started := afterUuid (afterClock session)
      have recordId : record.id = loaded.id := sameId loaded changed edited
      have others : ∀ row ∈ earlier ++ later, row.id ≠ .holds record.id := by
        rw [recordId]
        exact sound.others_ne .org placed rfl
      have distinct : ((OrgRow.ofOrg loaded).overwritten record).Distinct (earlier ++ later) :=
        regular.unambiguous.distinct_renewedOrg sound placed rfl rfl rfl fresh
      have broken : brokenUnique? OrgRow.uniques ((OrgRow.ofOrg loaded).overwritten record)
            (earlier ++ later) =
          if (earlier ++ later).any fun row => row.name == changed.name then
            some ["orgs.name"] else none :=
        distinct.brokenUnique?_eq
      have changes : (change loaded).Gives session changed session := by
        rw [Gives, edits, edited]
      dsimp only [bind, Except.bind]
      rw [unlessNamed, sound.otherOrgs_eq placed]
      split
      · next taken =>
          rw [if_pos taken] at broken
          have refused := Org.overwrite_collides ring started record earlier later placed
            (congrArg Cell.holds recordId.symm) rfl others broken
          exact (mutate_fails_of_overwrite found changes refused).outcome_eq
      · next free =>
          rw [if_neg free] at broken
          have written := Org.overwrite_succeeds started ring record earlier later placed
            (congrArg Cell.holds recordId.symm) rfl others (brokenUnique?_eq_none.mp broken)
          have unnoted (columns : List String) : session.tables.Unnoted
              (Versioned.stamp loaded).signature ⟨session.uuidAhead 0⟩ columns := by
            rcases regular.traced with ⟨entries, traced⟩
            exact traced.unnoted (sound.row?_eq_some_iff.mp stored).1 rfl fresh columns
          obtain ⟨mutation, after, given, -⟩ :=
            mutate_succeeds sound found changes written ⟨rfl, rfl⟩ fresh unnoted
          exact given.outcome_eq

/-! ## New organizations -/

/-- An operation that comes to a success gives a value. -/
theorem Work.gives_of_outcome
    {α : Type}
    {work : Work α}
    {session : Session}
    (accepted : work.outcome session = .ok ()) :
    ∃ value after, work.Gives session value after := by
  rcases ran : work.runIn session with ⟨fault | value, after⟩
  · cases (Fails.outcome_eq ran).symm.trans accepted
  · exact ⟨value, after, ran⟩

/-- After a first operation the outcome is that of what follows, if it is always the same. -/
theorem Work.outcome_bind
    {α β : Type}
    {first : Work α}
    {next : α → Work β}
    {session : Session}
    {rest : Except Fault Unit}
    (follows : ∀ value middle, first.Gives session value middle →
      (next value).outcome middle = rest) :
    (first >>= next).outcome session = first.outcome session >>= fun _ => rest := by
  rcases ran : first.runIn session with ⟨fault | value, middle⟩
  · rw [Fails.outcome_eq (Fails.bind ran next), Fails.outcome_eq ran]
    rfl
  · rw [Gives.outcome_bind ran, Gives.outcome_eq ran]
    exact follows value middle ran

theorem Work.outcome_bind_of_ok
    {α β : Type}
    {first : Work α}
    {next : α → Work β}
    {session : Session}
    {rest : Except Fault Unit}
    (passes : first.outcome session = .ok ())
    (follows : ∀ value middle, first.Gives session value middle →
      (next value).outcome middle = rest) :
    (first >>= next).outcome session = rest := by
  rw [outcome_bind follows, passes]
  rfl

/-- The next identifiers, so many of them, differ and occur nowhere in the tables. -/
structure Session.DrawsNew
    (session : Session)
    (count : Nat) :
    Prop
    extends session.DrawsFresh count where
  unnamed : ∀ kind, ∀ further < count, session.tables.row? kind (session.uuidAhead further) = none

/-- An organization with a new identifier, a fresh signature and the next place is distinct. -/
theorem OrgRow.distinct_of_new
    {tables : Tables}
    {row : OrgRow}
    {id : OrgId}
    {signature : Signature}
    {order : Int}
    (sound : tables.Sound)
    (rowId : row.id = .holds id)
    (newId : tables.row? .org id.uuid = none)
    (rowSignature : row.signature = .holds signature)
    (fresh : ¬ tables.Registered signature)
    (rowOrder : row.order = .holds order)
    (above : ∃ stored, tables.highest .entity = .ok stored ∧ stored < order) :
    row.Distinct tables.orgs where
  signature := by
    intro other member
    rw [rowSignature]
    exact sound.clashes_fresh .org member fresh
  order := by
    intro other member
    rw [rowOrder, Cell.clashes_eq_false]
    intro same
    rcases above with ⟨stored, asked, below⟩
    rcases sound.numbered.knows .entity with ⟨top, knows⟩
    obtain rfl := knows.unique asked
    have bound := knows.above (tables.orgs.map OrgRow.order)
      (by simp [Tables.usedNumbers]) order (List.mem_map.mpr ⟨other, member, same⟩)
    omega
  id := by
    intro other member
    rw [rowId, Cell.clashes_eq_false]
    intro same
    exact List.find?_eq_none.mp newId other member (decide_eq_true same)

/-- An organization that is distinct from all is inserted unless one of them has its name. -/
theorem Tables.insertOrg_distinct
    {tables : Tables}
    {org : Org}
    (distinct : (OrgRow.ofOrg org).Distinct tables.orgs) :
    tables.insertOrg (OrgRow.ofOrg org) =
      (unlessNamed tables.orgs org.name).map fun _ =>
        RecordKind.org.view.restore tables (tables.orgs ++ [OrgRow.ofOrg org]) := by
  rw [insertOrg, insertRow, distinct.brokenUnique?_eq, unlessNamed]
  by_cases taken : tables.orgs.any (fun other => other.name == org.name) = true
  · have takenRow : tables.orgs.any (fun other => other.name == (OrgRow.ofOrg org).name) =
      true := taken
    rw [if_pos taken, if_pos takenRow]
    rfl
  · have freeRow : ¬ tables.orgs.any (fun other => other.name == (OrgRow.ofOrg org).name) =
      true := taken
    rw [if_neg taken, if_neg freeRow]
    rfl

namespace Directory

variable {ring : KeyRing} {before after session : Session}

/-- For a new user two identifiers are drawn, the second one as its signature. -/
theorem insertUser_draws
    {org : OrgId}
    {new : NewUser}
    {user : User}
    (given : (insertUser ring org new).Gives before user after) :
    user.id = ⟨before.uuidAhead 0⟩ ∧ user.stamp.signature = ⟨before.uuidAhead 1⟩ ∧
      user.org = org ∧ before.Drew 2 after := by
  simp only [insertUser, initialStamp, User.insert, Work.gives_bind, Work.gives_freshId,
    Work.gives_nextNumber, Work.gives_now, Work.gives_execute, Work.gives_pure] at given
  obtain ⟨_, _, ⟨rfl, rfl⟩, _, _, ⟨_, _, ⟨_, -, rfl, rfl⟩, _, _, ⟨-, rfl⟩, _, _, ⟨rfl, rfl⟩, rfl,
    rfl⟩, -, _, ⟨_, _, encloses, _, -, rfl⟩, -, _, ⟨_, -, rfl⟩, rfl, rfl⟩ := given
  obtain ⟨-, rfl⟩ := encloses.unique (User.sealTexts_draws _ rfl)
  exact ⟨rfl, rfl, rfl, rfl, rfl⟩

/-- For a new organization two more are drawn around those of its owner. -/
theorem insertOrg_draws
    {name : String}
    {new : NewOrg}
    {created : CreatedOrg}
    (given : (insertOrg ring name new).Gives before created after) :
    created.owner.stamp.signature = ⟨before.uuidAhead 2⟩ ∧
      created.org.stamp.signature = ⟨before.uuidAhead 3⟩ ∧ before.Drew 4 after := by
  simp only [insertOrg, initialStamp, Work.gives_bind, Work.gives_freshId, Work.gives_nextNumber,
    Work.gives_now, Work.gives_execute, Work.gives_require, Work.gives_pure] at given
  obtain ⟨_, _, ⟨-, rfl⟩, owner, middle, inserts, _, _, ⟨_, _, ⟨_, -, -, rfl⟩, _, _, ⟨-, rfl⟩, _, _,
    ⟨rfl, rfl⟩, rfl, rfl⟩, -, _, ⟨-, rfl⟩, -, _, ⟨_, -, rfl⟩, -, _, ⟨_, -, rfl⟩, rfl, rfl⟩ := given
  have begun : Session.Drew 1 before (Work.afterUuid before) := ⟨rfl, rfl⟩
  rcases insertUser_draws inserts with ⟨-, signature, -, drew⟩
  rw [begun.uuidAhead_eq] at signature
  have drewBoth := begun.trans drew
  have orgSignature := drewBoth.uuidAhead_eq 0
  exact ⟨signature, congrArg Id.mk orgSignature, drewBoth.source, congrArg (· + 1) drewBoth.uuid⟩

/-- A new organization is inserted with its owner unless its name is taken. -/
theorem outcome_insertOrg
    (ring : KeyRing)
    {name : String}
    (new : NewOrg)
    (sound : session.tables.Sound)
    (linked : session.tables.Linked)
    (named : Org.checkName name = .ok ())
    (unused : session.DrawsNew 4) :
    (insertOrg ring name new).outcome session = unlessNamed session.tables.orgs name := by
  have begun : Session.Drew 1 session (Work.afterUuid session) := ⟨rfl, rfl⟩
  -- Nobody can be in the way of the owner.
  have nobody : session.tables.membersOf ⟨session.uuidAhead 0⟩ = [] := by
    rw [membersOf, List.filter_eq_nil_iff]
    intro row member belongs
    rcases linked.housed row member with ⟨org, stored, same⟩
    have holds := same.trans (of_decide_eq_true belongs)
    exact List.find?_eq_none.mp (unused.unnamed .org 0 (by decide)) org stored
      (decide_eq_true holds)
  have owner : (insertUser ring ⟨session.uuidAhead 0⟩ new.owner).outcome
      (Work.afterUuid session) = .ok () := by
    have soundNow : (Work.afterUuid session).tables.Sound := sound
    have newId := unused.unnamed .user 1 (by decide)
    have fresh := unused.unissued 2 (by decide)
    rw [← begun.uuidAhead_eq 0] at newId
    rw [← begun.uuidAhead_eq 1] at fresh
    have others : (Work.afterUuid session).tables.membersOf ⟨session.uuidAhead 0⟩ = [] := nobody
    rw [outcome_insertUser ring _ new.owner soundNow newId fresh, others]
    rfl
  rw [insertOrg, (Work.freshId_succeeds session .org).outcome_bind]
  refine Work.outcome_bind_of_ok owner ?_
  intro owner middle inserts
  rcases insertUser_draws inserts with ⟨-, ownerSignature, -, drew⟩
  rcases insertUser_gives inserts with ⟨texts, inserted, -, -⟩
  have drewBoth : session.Drew 3 middle := begun.trans drew
  have soundThen : middle.tables.Sound := (Undergoes.inserted inserted).sound sound
  have otherKind : RecordKind.org ≠ .user := by decide
  have orgs : middle.tables.orgs = session.tables.orgs := inserted.rows_of_ne otherKind
  obtain ⟨stamp, stamped, stamps, signature, stampedTables, -⟩ :=
    initialStamp_succeeds soundThen.numbered new.status new.role
  rw [drewBoth.uuidAhead_eq] at signature
  rw [begun.uuidAhead_eq] at ownerSignature
  have fresh : ¬ middle.tables.Registered stamp.signature := by
    rw [(Undergoes.inserted inserted).registered_iff, signature]
    rintro (issued | same)
    · exact unused.unissued 3 (by decide) issued
    · have equal := unused.apart 2 (by decide) 3 (by decide)
        (congrArg Id.uuid (ownerSignature.symm.trans same))
      cases equal
  let org : Org := { id := ⟨session.uuidAhead 0⟩, name, owner := owner.id, stamp }
  have newId : middle.tables.row? .org (session.uuidAhead 0) = none := by
    rw [row?, inserted.rows_of_ne otherKind]
    exact unused.unnamed .org 0 (by decide)
  have distinct : (OrgRow.ofOrg org).Distinct middle.tables.orgs :=
    OrgRow.distinct_of_new soundThen rfl newId rfl fresh rfl (initialStamp_gives stamps).above
  have accepts := Tables.insertOrg_distinct distinct
  rw [orgs, ← stampedTables] at accepts
  have passes : org.check = .ok () := named
  rw [stamps.outcome_bind]
  refine (Work.require_succeeds stamped passes).outcome_bind.trans ?_
  cases judged : unlessNamed session.tables.orgs name with
  | error fault =>
      have refused : stamped.tables.insertOrg (OrgRow.ofOrg org) = .error fault :=
        accepts.trans (congrArg _ judged)
      exact ((Work.execute_fails refused).bind _).outcome_eq
  | ok free =>
      let rows := RecordKind.org.view.restore stamped.tables
        (session.tables.orgs ++ [OrgRow.ofOrg org])
      have accepted : stamped.tables.insertOrg (OrgRow.ofOrg org) = .ok rows :=
        accepts.trans (congrArg _ judged)
      have registers : rows.register org.stamp.signature .org org.stamp.created = .ok _ :=
        Tables.register_restore .org _ .org stamp.created (stampedTables ▸ fresh)
      exact (Work.execute_succeeds accepted).outcome_bind.trans
        (Work.execute_succeeds registers).outcome_bind

/-- The owner of a new organization is promoted. -/
theorem outcome_promoteOwner
    {inserted : CreatedOrg}
    {texts : SealedTexts}
    (regular : session.tables.Regular)
    (stored : session.tables.row? .user inserted.owner.id.uuid =
      some (UserRow.ofUser inserted.owner texts))
    (opens : texts.OpenTo ring inserted.owner)
    (fresh : ¬ session.tables.Registered ⟨session.uuidAhead 0⟩) :
    (promoteOwner ring inserted).outcome session = .ok () := by
  have found : Versioned.find session.tables ring inserted.owner.id =
      .ok (some inserted.owner) :=
    user?_ofUser stored opens
  have edits := Work.edits_pure fun user : User =>
    { user with stamp := { user.stamp with status := .active } }
  have spares : User.Spares inserted.owner
      { inserted.owner with stamp := { inserted.owner.stamp with status := .active } } :=
    ⟨rfl, rfl, rfl⟩
  obtain ⟨mutation, after, mutates, -⟩ := Work.mutate_accepted edits regular fresh
    (Work.admitted_of_found found rfl) spares
  exact mutates.outcome_bind

end Directory

end SealedDirectory
