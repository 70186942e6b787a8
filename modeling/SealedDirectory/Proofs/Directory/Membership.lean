import SealedDirectory.Proofs.Directory.Linked
import SealedDirectory.Proofs.Directory.Places
import SealedDirectory.Proofs.Directory.Texts
import SealedDirectory.Proofs.Directory.Unambiguous

/-!
# Members are listed once

In every store that a run reaches, organizations and users are linked to each other and
cannot be mistaken for others of their kind.  So whoever lists all organizations and then
the members of each meets every stored user exactly once, in the order of insertion within
each list.  For this the key ring has to have the keys of all rows; the links themselves
need no key.
-/

namespace SealedDirectory

/-! ## Reading rows one after the other -/

/-- A list is read if each of its items is. -/
theorem mapM_eq_ok_of_forall₂
    {ε α β : Type}
    {f : α → Except ε β}
    {items : List α}
    {values : List β}
    (each : List.Forall₂ (fun item value => f item = .ok value) items values) :
    items.mapM f = .ok values := by
  induction each with
  | nil => rfl
  | cons here _ ih =>
      rw [List.mapM_cons, here, ih]
      rfl

theorem exists_forall₂
    {α β : Type}
    {relation : α → β → Prop}
    {items : List α}
    (each : ∀ item ∈ items, ∃ value, relation item value) :
    ∃ values, List.Forall₂ relation items values := by
  induction items with
  | nil => exact ⟨[], .nil⟩
  | cons item items ih =>
      rcases each item (List.mem_cons_self ..) with ⟨value, here⟩
      rcases ih fun other member => each other (List.mem_cons_of_mem _ member) with
        ⟨values, others⟩
      exact ⟨value :: values, .cons here others⟩

/-- Whatever stands in the second list has its partner in the first one. -/
theorem exists_mem_of_forall₂
    {α β : Type}
    {relation : α → β → Prop}
    {items : List α}
    {values : List β}
    (each : List.Forall₂ relation items values) :
    ∀ value ∈ values, ∃ item ∈ items, relation item value := by
  induction each with
  | nil => simp
  | cons here _ ih =>
      intro value member
      rcases List.mem_cons.mp member with rfl | inRest
      · exact ⟨_, List.mem_cons_self .., here⟩
      · rcases ih value inRest with ⟨item, inItems, related⟩
        exact ⟨item, List.mem_cons_of_mem _ inItems, related⟩

theorem map_eq_map_of_forall₂
    {α β γ : Type}
    {f : α → γ}
    {g : β → γ}
    {items : List α}
    {values : List β}
    (each : List.Forall₂ (fun item value => f item = g value) items values) :
    items.map f = values.map g := by
  rw [← List.forall₂_eq_eq_eq, List.forall₂_map_left_iff, List.forall₂_map_right_iff]
  exact each

/-- Rows whose places ascend are in order already. -/
theorem Tables.inOrder_of_ascending
    {ρ : Type}
    {order : ρ → Cell Int}
    {rows : List ρ}
    (ascending : rows.Pairwise fun row next => (order row).Precedes (order next)) :
    inOrder order rows = rows := by
  apply List.mergeSort_of_pairwise
  apply ascending.imp
  rintro row next ⟨number, later, holds, holdsNext, below⟩
  rw [holds, holdsNext]
  simpa [Cell.content, Storable.content, Content.atMost] using Int.le_of_lt below

/-- Rows that are gathered key by key are all rows, if every key occurs once. -/
theorem perm_flatMap_filter
    {ρ κ : Type}
    [DecidableEq κ]
    {key : ρ → κ}
    {keys : List κ}
    {rows : List ρ}
    (nodup : keys.Nodup)
    (covers : ∀ row ∈ rows, key row ∈ keys) :
    (keys.flatMap fun found => rows.filter fun row => key row = found).Perm rows := by
  induction keys generalizing rows with
  | nil =>
      have none : rows = [] := List.eq_nil_iff_forall_not_mem.mpr fun row member =>
        List.not_mem_nil (covers row member)
      rw [none]
      exact .refl _
  | cons first keys ih =>
      rcases List.nodup_cons.mp nodup with ⟨apart, nodup⟩
      let others := rows.filter fun row => !decide (key row = first)
      have coversOthers : ∀ row ∈ others, key row ∈ keys := by
        intro row member
        simp only [others, List.mem_filter, Bool.not_eq_true', decide_eq_false_iff_not] at member
        exact List.mem_of_ne_of_mem member.2 (covers row member.1)
      have sameOthers : (keys.flatMap fun found => rows.filter fun row => key row = found) =
          keys.flatMap fun found => others.filter fun row => key row = found := by
        refine List.flatMap_congr fun found member => ?_
        have differs : found ≠ first := fun same => apart (same ▸ member)
        rw [List.filter_filter]
        refine List.filter_congr fun row _ => ?_
        by_cases here : key row = found
        · simp [here, differs]
        · simp [here]
      rw [List.flatMap_cons, sameOthers]
      exact ((ih nodup coversOthers).append_left _).trans
        (List.filter_append_perm (fun row => decide (key row = first)) rows)

/-! ## Rows that open -/

/-- A key ring opens the row of a user. -/
def UserRow.OpensTo
    (ring : KeyRing)
    (row : UserRow)
    (user : User) :
    Prop :=
  ∃ texts, row = .ofUser user texts ∧ texts.OpenTo ring user

theorem UserRow.OpensTo.id_eq
    {ring : KeyRing}
    {row : UserRow}
    {user : User}
    (opens : row.OpensTo ring user) :
    row.id = .holds user.id := by
  rcases opens with ⟨texts, rfl, -⟩
  rfl

theorem Mirrors.opensTo
    {rings : List KeyRing}
    {reader : KeyRing}
    {id : UserId}
    {row : UserRow}
    {plain : PlainUser}
    (mirrors : Mirrors rings id row plain)
    (among : reader ∈ rings)
    (contains : ∀ version, row.keyVersion = .holds version → reader.contains version = true) :
    ∃ user, row.OpensTo reader user := by
  cases mirrors with
  | sealing digested opens => exact ⟨_, _, rfl, opens reader among (contains _ rfl)⟩

/-- A key ring has the keys of all rows of users. -/
def Tables.OpenedBy
    (tables : Tables)
    (ring : KeyRing) :
    Prop :=
  ∀ row ∈ tables.users, ∀ version, row.keyVersion = .holds version →
    ring.contains version = true

namespace Tables

variable {tables : Tables} {rings : List KeyRing} {reader : KeyRing} {store : PlainStore}

/-- A row is opened by a ring that has its key and agrees with those that wrote it. -/
theorem Refines.opensTo
    {row : UserRow}
    (refines : tables.Refines rings store)
    (sound : tables.Sound)
    (among : reader ∈ rings)
    (opened : tables.OpenedBy reader)
    (member : row ∈ tables.users) :
    ∃ user, row.OpensTo reader user := by
  rcases refines.held_of_mem sound member with ⟨id, plain, -, -, mirrors⟩
  exact mirrors.opensTo among (opened row member)

/-- Rows that open one by one are listed together. -/
theorem members_of_opensTo
    {org : OrgId}
    {users : List User}
    (ascending : tables.Ascending)
    (opens : List.Forall₂ (UserRow.OpensTo reader)
      (tables.users.filter fun row => row.org = .holds org) users) :
    tables.members reader org = .ok users := by
  have places : tables.users.Pairwise fun row next => row.order.Precedes next.order :=
    List.pairwise_map.mp (ascending.rows .user)
  rw [members, inOrder_of_ascending (places.filter _)]
  generalize tables.users.filter (fun row => decide (row.org = .holds org)) = rows at opens
  clear places
  have read : ∃ stored, rows.mapM UserRow.toStored = .ok stored ∧
      stored.mapM (fun user => user.opened reader) = .ok users := by
    induction opens with
    | nil => exact ⟨[], rfl, rfl⟩
    | @cons row user _ _ here _ ih =>
        rcases here with ⟨texts, rfl, opensHere⟩
        rcases ih with ⟨stored, readThem, openThem⟩
        refine ⟨.ofUser user texts :: stored, ?_, ?_⟩
        · rw [List.mapM_cons, readThem]
          rfl
        · rw [List.mapM_cons, opensHere.opened, openThem]
          rfl
  rcases read with ⟨stored, readThem, openThem⟩
  exact bind_eq_ok.mpr ⟨stored, readThem, openThem⟩

/-- All rows of organizations are listed in the order in which they are stored. -/
theorem orgsInOrder_eq
    (ascending : tables.Ascending)
    (sound : tables.Sound) :
    ∃ orgs, tables.orgsInOrder = .ok orgs ∧ orgs.map OrgRow.ofOrg = tables.orgs := by
  have places : tables.orgs.Pairwise fun row next => row.order.Precedes next.order :=
    List.pairwise_map.mp (ascending.rows .org)
  rcases exists_forall₂ (sound.written .org) with ⟨orgs, written⟩
  refine ⟨orgs, ?_, ?_⟩
  · rw [orgsInOrder, inOrder_of_ascending places]
    refine mapM_eq_ok_of_forall₂ (written.imp fun row org isRow => ?_)
    rw [isRow, OrgRow.toOrg_ofOrg]
  · have same := map_eq_map_of_forall₂ (f := id) written
    rw [List.map_id] at same
    exact same.symm

end Tables

/-! ## What holds of the tables -/

/-- Rows are linked, and nothing that identifies a row is shared by two of them. -/
structure Tables.Coherent (tables : Tables) : Prop where
  owned : ∀ org ∈ tables.orgs, ∃ id owner,
    org.id = .holds id ∧ org.owner = .holds owner ∧
      ∃ user ∈ tables.users, user.id = .holds owner ∧ user.org = .holds id
  housed : ∀ user ∈ tables.users, ∃ id org,
    user.id = .holds id ∧ user.org = .holds org ∧
      ∃ stored ∈ tables.orgs, stored.id = .holds org
  orgIds : (tables.orgs.map OrgRow.id).Nodup
  names : (tables.orgs.map OrgRow.name).Nodup
  userIds : (tables.users.map UserRow.id).Nodup
  publicKeys : (tables.users.map fun row => (row.org, row.publicKeyDigest)).Nodup
  emails : (tables.users.map fun row => (row.org, row.emailDigest)).Nodup
  proper : ∀ org ∈ tables.orgs, Org.Proper org.name

theorem Tables.Linked.coherent
    {tables : Tables}
    (linked : tables.Linked)
    (sound : tables.Sound)
    (unambiguous : tables.Unambiguous) :
    tables.Coherent where
  owned := by
    intro row member
    rcases sound.written .org row member with ⟨org, rfl⟩
    rcases linked.owned _ member with ⟨user, stored, owns, belongs⟩
    exact ⟨org.id, org.owner, rfl, rfl, user, stored, owns, belongs⟩
  housed := by
    intro row member
    rcases sound.written .user row member with ⟨user, texts, rfl⟩
    rcases linked.housed _ member with ⟨org, stored, same⟩
    exact ⟨user.id, user.org, rfl, rfl, org, stored, same⟩
  orgIds := List.pairwise_map.mpr (sound.distinct .org)
  names := unambiguous.nodup_names
  userIds := List.pairwise_map.mpr (sound.distinct .user)
  publicKeys := unambiguous.nodup_publicKeys sound
  emails := unambiguous.nodup_emails sound
  proper := linked.proper

/-! ## What is listed -/

/-- The members of an organization are listed with a key ring, each as it is found. -/
structure ListsMembers
    (reader : KeyRing)
    (session : Session)
    (org : Org)
    (members : List User) :
    Prop where
  given : (Directory.members reader org.id).Gives session members session
  belong : ∀ user ∈ members, user.org = org.id
  ascending : members.Pairwise fun user next => user.stamp.order < next.stamp.order
  found : ∀ user ∈ members, (Directory.user? reader user.id).Gives session (some user) session

/-- All organizations are listed, and the members of each, so that every user is met once. -/
structure ListsAll
    (reader : KeyRing)
    (session : Session)
    (orgs : List Org)
    (lists : List (List User)) :
    Prop where
  given : Directory.orgs.Gives session orgs session
  stored : orgs.map OrgRow.ofOrg = session.tables.orgs
  members : List.Forall₂ (ListsMembers reader session) orgs lists
  complete : (lists.flatten.map fun user => Cell.holds user.id).Perm
    (session.tables.users.map UserRow.id)

section

variable {session : Session} {reader : KeyRing}

theorem listsMembers_of_opensTo
    {org : Org}
    {members : List User}
    (sound : session.tables.Sound)
    (ascending : session.tables.Ascending)
    (opens : List.Forall₂ (UserRow.OpensTo reader)
      (session.tables.users.filter fun row => row.org = .holds org.id) members) :
    ListsMembers reader session org members := by
  have row (user : User) (listed : user ∈ members) : ∃ texts,
      UserRow.ofUser user texts ∈ session.tables.users ∧ user.org = org.id ∧
        texts.OpenTo reader user := by
    rcases exists_mem_of_forall₂ opens user listed with ⟨row, chosen, texts, rfl, opensHere⟩
    rw [List.mem_filter, decide_eq_true_eq] at chosen
    exact ⟨texts, chosen.1, Cell.holds.inj chosen.2, opensHere⟩
  constructor
  · exact Work.gives_ask.mpr ⟨Tables.members_of_opensTo ascending opens, rfl⟩
  · intro user listed
    rcases row user listed with ⟨texts, -, belongs, -⟩
    exact belongs
  · -- The places of the listed users are those of the rows that were chosen.
    have sameOrder := map_eq_map_of_forall₂ (f := UserRow.order)
      (g := fun user : User => .holds user.stamp.order) (opens.imp fun row user opensHere => by
        rcases opensHere with ⟨texts, rfl, -⟩
        rfl)
    have places : (session.tables.users.map UserRow.order).Pairwise Cell.Precedes :=
      ascending.rows .user
    have chosen := places.sublist
      ((List.filter_sublist (p := fun row => row.org = .holds org.id)).map UserRow.order)
    rw [sameOrder, List.pairwise_map] at chosen
    apply chosen.imp
    rintro user next ⟨number, later, holds, holdsNext, below⟩
    rwa [Cell.holds.inj holds, Cell.holds.inj holdsNext]
  · intro user listed
    rcases row user listed with ⟨texts, stored, -, opensHere⟩
    exact Work.gives_ask.mpr
      ⟨Tables.user?_ofUser (sound.row?_eq_some_iff.mpr ⟨stored, rfl⟩) opensHere, rfl⟩

/-- If every row opens, all users are listed with their organizations. -/
theorem exists_listsAll
    (sound : session.tables.Sound)
    (ascending : session.tables.Ascending)
    (coherent : session.tables.Coherent)
    (opens : ∀ row ∈ session.tables.users, ∃ user, row.OpensTo reader user) :
    ∃ orgs lists, ListsAll reader session orgs lists := by
  rcases Tables.orgsInOrder_eq ascending sound with ⟨orgs, listed, stored⟩
  let rowsOf (org : Org) : List UserRow :=
    session.tables.users.filter fun row => row.org = .holds org.id
  have openList (org : Org) (_ : org ∈ orgs) :
      ∃ members, List.Forall₂ (UserRow.OpensTo reader) (rowsOf org) members := by
    apply exists_forall₂
    intro row chosen
    exact opens row (List.mem_filter.mp chosen).1
  rcases exists_forall₂ openList with ⟨lists, opened⟩
  refine ⟨orgs, lists, Work.gives_ask.mpr ⟨listed, rfl⟩, stored, ?_, ?_⟩
  · exact opened.imp fun org members => listsMembers_of_opensTo sound ascending
  · -- Every row is chosen for one organization, since its organization is stored once.
    have rows : List.Forall₂ (UserRow.OpensTo reader) (orgs.flatMap rowsOf) lists.flatten :=
      List.rel_flatten (List.forall₂_map_left_iff.mpr opened)
    have cells := map_eq_map_of_forall₂ (rows.imp fun row user => UserRow.OpensTo.id_eq)
    have ids : session.tables.orgs.map OrgRow.id = orgs.map fun org => .holds org.id := by
      rw [← stored, List.map_map]
      rfl
    have nodup := coherent.orgIds
    rw [ids] at nodup
    have covers : ∀ row ∈ session.tables.users,
        row.org ∈ orgs.map fun org => Cell.holds org.id := by
      intro row member
      rcases coherent.housed row member with ⟨-, id, -, holds, house, inTable, same⟩
      rw [← ids, holds, ← same]
      exact List.mem_map_of_mem inTable
    have gathered := (perm_flatMap_filter nodup covers).map UserRow.id
    rw [List.flatMap_map] at gathered
    rw [← cells]
    exact gathered

end

/-! ## The main statement -/

/--
In every run from an empty store: the owner of every organization is stored and one of its
members, the organization of every user is stored, and neither names and identifiers nor the
digests within an organization are shared.  A key ring that agrees with those of the run and
has the keys of all rows lists every user once, under its organization.
-/
theorem members_are_listed_once
    (source : Source)
    (events : List Event) :
    ((Session.founded source).after events).tables.Coherent ∧
      ∀ reader,
        KeyRing.Agree (reader :: events.flatMap Event.writers) →
          ((Session.founded source).after events).tables.OpenedBy reader →
            ∃ orgs lists, ListsAll reader ((Session.founded source).after events) orgs lists := by
  have evolves := Session.evolves_from_empty source events
  have sound := evolves.sound .empty
  have unambiguous := Tables.Unambiguous.empty.evolves evolves
  have linked : ((Session.founded source).after events).tables.Linked :=
    (Tables.Linked.empty.writes (Tables.rests_founded .empty).writes).writtenFrom
      (Session.writtenFrom_after _ events (Session.sound_founded source))
  have coherent := linked.coherent sound unambiguous
  refine ⟨coherent, ?_⟩
  intro reader agree opened
  have refines := Session.refines_from_empty source events
    (fun _ => List.mem_cons_of_mem reader) agree
  apply exists_listsAll sound (evolves.ascending .empty .empty) coherent
  intro row member
  exact refines.opensTo sound (List.mem_cons_self ..) opened member

/-! ## Keys of all rows -/

section

variable {events : List Event}

/-- Every row is sealed under what was the current version of a ring of the run. -/
theorem Session.version_after
    {row : UserRow}
    (source : Source)
    (agree : KeyRing.Agree (events.flatMap Event.writers))
    (member : row ∈ ((Session.founded source).after events).tables.users) :
    ∃ ring ∈ events.flatMap Event.writers, row.keyVersion = .holds ring.current := by
  have refines := Session.refines_from_empty source events (fun _ => id) agree
  have versions : ((Session.founded source).plain .empty events).All
      (PlainUser.UnderOneOf (events.flatMap Event.writers)) := by
    refine Session.all_plain _ events ?_ .empty
    intro ring request performed store response
    apply request.underOneOf response
    exact List.mem_flatMap.mpr ⟨_, performed, by simp [Event.writers]⟩
  exact refines.version_of_writer (Session.sound_after source events) versions member

/-- A ring that has the current keys of all rings of a run has the keys of all rows. -/
theorem Session.openedBy_after
    {reader : KeyRing}
    (source : Source)
    (agree : KeyRing.Agree (events.flatMap Event.writers))
    (has : ∀ ring ∈ events.flatMap Event.writers, reader.contains ring.current = true) :
    ((Session.founded source).after events).tables.OpenedBy reader := by
  intro row member version holds
  rcases Session.version_after source agree member with ⟨ring, writer, current⟩
  rw [Cell.holds.inj (holds.symm.trans current)]
  exact has ring writer

end

/-! ## The first organization after a rotation -/

namespace Sample

/-- The run that creates the first organization. -/
def founding : List Event :=
  [.performed ring (.createOrg newOrg)]

theorem agree_founding : KeyRing.Agree (rotated :: founding.flatMap Event.writers) :=
  agree_rotated

theorem after_founding :
    ∃ created,
      ((Session.founded source).after founding).HoldsFirst ring (Session.founded source)
        created := by
  rcases begins with ⟨created, session, creates, first⟩
  refine ⟨created, ?_⟩
  rw [founding, Session.after_cons, Session.after_nil, Event.step_performed creates]
  exact first

theorem opened_by_rotated :
    ((Session.founded source).after founding).tables.OpenedBy rotated := by
  apply Session.openedBy_after
  · exact agree_founding.mono (List.subset_cons_self _ _)
  · decide +kernel

end Sample

/-- The owner of the first organization is listed after the current key was replaced. -/
theorem first_owner_is_listed_after_rotation :
    ∃ events,
      KeyRing.Agree (Sample.rotated :: events.flatMap Event.writers) ∧
        ((Session.founded Sample.source).after events).tables.OpenedBy Sample.rotated ∧
        ∃ orgs lists,
          ListsAll Sample.rotated ((Session.founded Sample.source).after events) orgs lists ∧
            lists.flatten.length = 1 := by
  rcases Sample.after_founding with ⟨created, first⟩
  rcases first.owner with ⟨texts, users, -⟩
  rcases (members_are_listed_once Sample.source Sample.founding).2 Sample.rotated
    Sample.agree_founding Sample.opened_by_rotated with ⟨orgs, lists, listed⟩
  have counted := listed.complete.length_eq
  rw [users, List.length_map] at counted
  exact ⟨Sample.founding, Sample.agree_founding, Sample.opened_by_rotated, orgs, lists, listed,
    counted⟩

end SealedDirectory
