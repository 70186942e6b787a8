import SealedDirectory.Proofs.Directory.Rekeying

/-!
# All users under the current version

After the current key of a ring was replaced, all users that are still sealed under another
version can be brought to the new one in one go.  In a store that a run reached this never
fails and stops after each of them was changed once: each user is still as the list of stale
users found it when its turn comes, since the changes before it were changes of others.
Afterwards no stale user is left, so doing it again does nothing.
-/

namespace SealedDirectory

open Tables

/-! ## Several users, one after the other -/

/-- What is read of a user depends on its row only. -/
theorem Directory.user?_gives_of_row?
    {ring : KeyRing}
    {id : UserId}
    {found : Option User}
    {before after : Session}
    (given : (Directory.user? ring id).Gives before found before)
    (same : after.tables.row? .user id.uuid = before.tables.row? .user id.uuid) :
    (Directory.user? ring id).Gives after found after := by
  have sameStored : after.tables.storedUser? id = before.tables.storedUser? id :=
    congrArg (fun row? : Option UserRow => row?.mapM UserRow.toStored) same
  have reads := (Work.gives_ask.mp given).1
  refine Work.gives_ask.mpr ⟨?_, rfl⟩
  rw [Tables.user?, sameStored]
  exact reads

namespace Moved

variable {ring : KeyRing} {before middle after : Session} {move : Rekeying}
  {moves : List Rekeying}

theorem refl (session : Session) : Moved ring session session [] where
  brings := by simp
  others := fun _ _ => rfl
  ids := rfl
  orgs := rfl
  issued := fun _ => id
  trail := (List.append_nil _).symm

/-- A user is brought to the current version before others, which it is not one of. -/
theorem cons
    (first : Moved ring before middle [move])
    (rest : Moved ring middle after moves)
    (apart : ∀ other ∈ moves, other.user.id ≠ move.user.id) :
    Moved ring before after (move :: moves) where
  brings := by
    intro one member
    rcases List.mem_cons.mp member with rfl | inRest
    · have brought := first.brings one (List.mem_singleton_self _)
      exact { brought with
        readNow := Directory.user?_gives_of_row? brought.readNow (rest.others _ apart) }
    · have brought := rest.brings one inRest
      have untouched : middle.tables.row? .user one.user.id.uuid =
          before.tables.row? .user one.user.id.uuid := by
        apply first.others
        intro other isMove
        rw [List.mem_singleton.mp isMove]
        exact (apart one inRest).symm
      exact { brought with
        read := Directory.user?_gives_of_row? brought.read untouched.symm
        fresh := mt (first.issued _) brought.fresh }
  others := by
    intro id other
    rw [rest.others id fun one member => other one (List.mem_cons_of_mem _ member)]
    apply first.others
    intro one isMove
    rw [List.mem_singleton.mp isMove]
    exact other move (List.mem_cons_self ..)
  ids := rest.ids.trans first.ids
  orgs := rest.orgs.trans first.orgs
  issued := fun signature earlier => rest.issued signature (first.issued signature earlier)
  trail := by
    rw [rest.trail, first.trail, List.append_assoc]
    rfl

end Moved

/-! ## The stale users -/

/-- The rows that are sealed under other versions than the current one of a ring. -/
def KeyRing.staleRows (ring : KeyRing) (rows : List UserRow) : List UserRow :=
  rows.filter fun row => row.keyVersion ≠ .holds ring.current

namespace Tables

variable {tables : Tables} {ring : KeyRing}

/-- The stale users are listed in the order in which they are stored. -/
theorem staleUsers_eq
    (ring : KeyRing)
    (ascending : tables.Ascending)
    (sound : tables.Sound) :
    ∃ ids, tables.staleUsers ring.current = .ok ids ∧
      (ring.staleRows tables.users).map UserRow.id = ids.map Cell.holds := by
  have places : tables.users.Pairwise fun row next => row.order.Precedes next.order :=
    List.pairwise_map.mp (ascending.rows .user)
  have holdsId (row : UserRow) (stale : row ∈ ring.staleRows tables.users) :
      ∃ id, row.id = .holds id := by
    rcases sound.written .user row (List.mem_filter.mp stale).1 with ⟨user, texts, rfl⟩
    exact ⟨user.id, rfl⟩
  rcases exists_forall₂ holdsId with ⟨ids, hold⟩
  refine ⟨ids, ?_, map_eq_map_of_forall₂ hold⟩
  rw [staleUsers, inOrder_of_ascending (places.filter _)]
  refine mapM_eq_ok_of_forall₂ (hold.imp fun row id holds => ?_)
  rw [holds, Cell.read_holds]

/-- No user is listed twice among the stale ones. -/
theorem nodup_of_staleRows
    {ids : List UserId}
    (sound : tables.Sound)
    (stale : (ring.staleRows tables.users).map UserRow.id = ids.map Cell.holds) :
    ids.Nodup := by
  have distinct : (tables.users.map UserRow.id).Nodup :=
    List.pairwise_map.mpr (sound.distinct .user)
  have chosen : (ring.staleRows tables.users).Sublist tables.users := List.filter_sublist
  have staleDistinct := distinct.sublist (chosen.map UserRow.id)
  rw [stale] at staleDistinct
  exact staleDistinct.of_map

/-- The first stale row stands between rows that are current and the other stale ones. -/
theorem staleRows_eq_cons
    {id : UserId}
    {ids : List UserId}
    (stale : (ring.staleRows tables.users).map UserRow.id = (id :: ids).map Cell.holds) :
    ∃ earlier row later, tables.users = earlier ++ row :: later ∧
      row.id = .holds id ∧ row.keyVersion ≠ .holds ring.current ∧
      (∀ row ∈ earlier, row.keyVersion = .holds ring.current) ∧
      (ring.staleRows later).map UserRow.id = ids.map Cell.holds := by
  rcases List.map_eq_cons_iff.mp stale with ⟨row, rows, filtered, holds, others⟩
  rcases List.filter_eq_cons_iff.mp filtered with
    ⟨earlier, later, placed, current, isStale, rest⟩
  refine ⟨earlier, row, later, placed, holds, of_decide_eq_true isStale, ?_, ?_⟩
  · intro other member
    simpa using current other member
  · rw [KeyRing.staleRows, rest]
    exact others

/-- Once the first stale row is current, the others are left. -/
theorem staleRows_of_current
    {earlier later : List UserRow}
    {row : UserRow}
    (placed : tables.users = earlier ++ row :: later)
    (current : ∀ row ∈ earlier, row.keyVersion = .holds ring.current)
    (now : row.keyVersion = .holds ring.current) :
    ring.staleRows tables.users = ring.staleRows later := by
  have none : ring.staleRows earlier = [] := by
    rw [KeyRing.staleRows, List.filter_eq_nil_iff]
    intro other member
    simp [current other member]
  rw [KeyRing.staleRows] at none
  rw [KeyRing.staleRows, placed, List.filter_append, none, List.nil_append]
  exact List.filter_cons_of_neg (by simp [now])

end Tables

namespace Directory

variable {ring : KeyRing} {session : Session}

/-- Stale users are brought to the current version one after the other. -/
theorem rekeyEach_succeeds
    {ids : List UserId}
    (ready : session.Ready ring)
    (stale : (ring.staleRows session.tables.users).map UserRow.id = ids.map Cell.holds)
    (fresh : session.DrawsFresh ids.length) :
    ∃ after moves, (ids.forM fun id => rekeyNow ring id).Gives session () after ∧
      after.Ready ring ∧ Moved ring session after moves ∧
      moves.map (fun move => move.user.id) = ids ∧ ring.staleRows after.tables.users = [] := by
  induction ids generalizing session with
  | nil =>
      exact ⟨session, [], Work.pure_succeeds _ _, ready, .refl session, rfl,
        List.map_eq_nil_iff.mp stale⟩
  | cons id ids ih =>
      have nodup := Tables.nodup_of_staleRows ready.sound stale
      rcases Tables.staleRows_eq_cons stale with
        ⟨earlier, row, later, placed, holds, isStale, current, others⟩
      have member : row ∈ session.tables.users := by
        rw [placed]
        exact List.mem_append_cons_self
      rcases ready.opens member with ⟨user, texts, opened⟩
      obtain rfl := opened.row
      obtain rfl : user.id = id := Cell.holds.inj holds
      have differs : user.keyVersion ≠ ring.current := fun same =>
        isStale (congrArg Cell.holds same)
      obtain ⟨middle, move, rfl, version, happens⟩ := rekeyNow_succeeds ready placed opened
        differs (fresh.unissued 0 (Nat.succ_pos _))
      -- The users after it in the list are those that are stale now.
      rcases happens.users with ⟨renewed, users⟩
      have left : ring.staleRows middle.tables.users = ring.staleRows later :=
        Tables.staleRows_of_current users current (congrArg Cell.holds version)
      have staleThen : (ring.staleRows middle.tables.users).map UserRow.id =
          ids.map Cell.holds := by
        rw [left]
        exact others
      obtain ⟨after, moves, given, readyNow, moved, sameIds, none⟩ := ih happens.ready
        staleThen (fresh.rest happens.drew happens.registered)
      refine ⟨after, move :: moves, ?_, readyNow, ?_, congrArg (move.user.id :: ·) sameIds, none⟩
      · exact happens.given.bind given
      · apply happens.moved.cons moved
        intro other inRest same
        apply (List.nodup_cons.mp nodup).1
        rw [← sameIds, ← same]
        exact List.mem_map_of_mem inRest

/-- Nothing is done where no user is stale. -/
theorem rekeyStale_of_none
    (none : ring.staleRows session.tables.users = [])
    (ready : session.Ready ring) :
    (staleUsers ring).Gives session [] session ∧ (rekeyStale ring).Gives session 0 session := by
  rcases Tables.staleUsers_eq ring ready.ascending ready.sound with
    ⟨ids, listed, same⟩
  rw [none] at same
  obtain rfl : ids = [] := List.map_eq_nil_iff.mp same.symm
  have lists : (staleUsers ring).Gives session [] session :=
    Work.gives_ask.mpr ⟨listed, rfl⟩
  exact ⟨lists, lists.bind ((Work.pure_succeeds _ _).bind (Work.pure_succeeds _ _))⟩

end Directory

/-! ## The main statement -/

/-- Every run leaves a session from which a ring with the keys of all rows can go on. -/
theorem Session.ready_after
    {ring : KeyRing}
    (source : Source)
    (events : List Event)
    (agree : KeyRing.Agree (ring :: events.flatMap Event.writers))
    (opened : ((Session.founded source).after events).tables.OpenedBy ring) :
    ((Session.founded source).after events).Ready ring := by
  have evolves := Session.evolves_from_empty source events
  have regular := Session.regular_after source events
  have among : ∀ writer ∈ events.flatMap Event.writers,
      writer ∈ ring :: events.flatMap Event.writers :=
    fun _ => List.mem_cons_of_mem ring
  exact {
    sound := regular.sound
    enrolled := regular.enrolled
    unambiguous := regular.unambiguous
    ascending := evolves.ascending .empty .empty
    traced := regular.traced
    plain := ⟨_, _, agree, List.mem_cons_self ..,
      Session.refines_from_empty source events among agree,
      Session.allChecked_plain _ events among agree (Session.sound_founded source)
        (Tables.Refines.empty.rests (Tables.rests_founded .empty)) .empty⟩
    opened }

/-- All stale users were brought to the current version of a ring, and nothing else was done. -/
structure AllRekeyed
    (ring : KeyRing)
    (before after : Session)
    (moves : List Rekeying) :
    Prop where
  given : (Directory.rekeyStale ring).Gives before moves.length after
  stale : (ring.staleRows before.tables.users).map UserRow.id =
    moves.map fun move => .holds move.user.id
  moved : Moved ring before after moves
  /-- Whoever was current is stored as before. -/
  kept : ∀ row ∈ before.tables.users, row.keyVersion = .holds ring.current →
    row ∈ after.tables.users
  noneLeft : (Directory.staleUsers ring).Gives after [] after
  again : (Directory.rekeyStale ring).Gives after 0 after

/-- Current users are not among those that are brought to the current version. -/
theorem Moved.kept
    {ring : KeyRing}
    {before after : Session}
    {moves : List Rekeying}
    (moved : Moved ring before after moves)
    (ready : before.Ready ring)
    (sound : after.tables.Sound)
    {row : UserRow}
    (member : row ∈ before.tables.users)
    (current : row.keyVersion = .holds ring.current) :
    row ∈ after.tables.users := by
  rcases ready.opens member with ⟨user, texts, opened⟩
  obtain rfl := opened.row
  have stored : before.tables.row? .user user.id.uuid = some (UserRow.ofUser user texts) :=
    ready.sound.row?_eq_some_iff.mpr ⟨member, rfl⟩
  have untouched := moved.others user.id (by
    intro move isMove same
    have brought := moved.brings move isMove
    have read := (Work.gives_ask.mp brought.read).1
    rw [same, user?_ofUser stored opened.opens, Except.ok.injEq, Option.some.injEq] at read
    apply brought.stale
    rw [← read]
    exact Cell.holds.inj current)
  exact (sound.row?_eq_some_iff.mp (untouched.trans stored)).1

/--
In every store that a run reaches, a ring that agrees with those of the run and has the keys
of all rows brings all stale users to its current version, provided that as many fresh
signatures are drawn.  Each of them keeps its texts and its place and gets a new signature
and one entry in the trail; all other users, the organizations and the earlier entries stay.
Then no stale user is left, and doing it again changes nothing.
-/
theorem stale_users_are_brought_to_the_current_version
    {ring : KeyRing}
    (source : Source)
    (events : List Event)
    (agree : KeyRing.Agree (ring :: events.flatMap Event.writers))
    (opened : ((Session.founded source).after events).tables.OpenedBy ring)
    (fresh : ((Session.founded source).after events).DrawsFresh
      (ring.staleRows ((Session.founded source).after events).tables.users).length) :
    ∃ after moves, AllRekeyed ring ((Session.founded source).after events) after moves := by
  have ready := Session.ready_after source events agree opened
  generalize (Session.founded source).after events = before at ready fresh
  rcases Tables.staleUsers_eq ring ready.ascending ready.sound with
    ⟨ids, listed, stale⟩
  have count : (ring.staleRows before.tables.users).length = ids.length := by
    simpa using congrArg List.length stale
  rw [count] at fresh
  obtain ⟨after, moves, given, readyNow, moved, sameIds, none⟩ :=
    Directory.rekeyEach_succeeds ready stale fresh
  have lists : (Directory.staleUsers ring).Gives before ids before :=
    Work.gives_ask.mpr ⟨listed, rfl⟩
  have number : ids.length = moves.length := by rw [← sameIds, List.length_map]
  rcases Directory.rekeyStale_of_none none readyNow with ⟨noneLeft, again⟩
  refine ⟨after, moves, {
    given := ?_
    stale := ?_
    moved
    kept := fun row => moved.kept ready readyNow.sound
    noneLeft
    again }⟩
  · rw [← number]
    exact lists.bind (given.bind (Work.pure_succeeds _ _))
  · rw [stale, ← sameIds, List.map_map]
    rfl

/-- The owner of the first organization is brought to the key that replaced its own. -/
theorem first_owner_is_rekeyed_after_rotation :
    ∃ events,
      KeyRing.Agree (Sample.rotated :: events.flatMap Event.writers) ∧
        ((Session.founded Sample.source).after events).tables.OpenedBy Sample.rotated ∧
        ((Session.founded Sample.source).after events).DrawsFresh
          (Sample.rotated.staleRows
            ((Session.founded Sample.source).after events).tables.users).length ∧
        ∃ after move,
          AllRekeyed Sample.rotated ((Session.founded Sample.source).after events) after
            [move] := by
  rcases Sample.after_founding with ⟨created, first⟩
  rcases first.owner with ⟨texts, users, opens⟩
  have stale : Sample.rotated.staleRows
      ((Session.founded Sample.source).after Sample.founding).tables.users =
        [UserRow.ofUser created.owner texts] := by
    rw [users, KeyRing.staleRows, List.filter_eq_self]
    intro row member
    rw [← users] at member
    rcases Session.version_after Sample.source (Sample.agree_founding.mono
      (List.subset_cons_self _ _)) member with ⟨ring, writer, version⟩
    obtain rfl : ring = Sample.ring := List.mem_singleton.mp writer
    rw [version]
    decide +kernel
  have fresh : ((Session.founded Sample.source).after Sample.founding).DrawsFresh 1 := {
    apart := by
      intro one below other belowOther _
      omega
    unissued := by
      intro further below
      obtain rfl : further = 0 := by omega
      exact first.fresh Sample.drawsApart_source }
  rw [show 1 = _ from (congrArg List.length stale).symm] at fresh
  rcases stale_users_are_brought_to_the_current_version Sample.source Sample.founding
    Sample.agree_founding Sample.opened_by_rotated fresh with ⟨after, moves, rekeyed⟩
  have single := rekeyed.stale
  rw [stale] at single
  rcases List.map_eq_singleton_iff.mp single.symm with ⟨move, rfl, -⟩
  exact ⟨Sample.founding, Sample.agree_founding, Sample.opened_by_rotated, fresh, after, move,
    rekeyed⟩

end SealedDirectory
