import SealedDirectory.Proofs.Directory.Reach
import SealedDirectory.Proofs.Directory.Rewriting

/-!
# Records that only four statements have written

The directory writes organizations and users by four statements: one inserts a record of
each kind, and one writes over a record of each kind under the guard of a signature.  They
are tended if nothing else has written them, whatever was written into the trail, the
registry and the marks, and in whatever order the statements ran.

The rows of tended records are the rows of records, and no identifier occurs twice among
those of a kind.  Nothing is known of the registry, so nothing is said about signatures.
-/

namespace SealedDirectory

open Tables

/-! ## Rows that are changed -/

/-- What changes keep is kept by a statement that changes rows. -/
theorem forall_updateRows
    {ρ : Type}
    {uniques : List (Unique ρ)}
    {select : ρ → Bool}
    {change : ρ → Except Fault ρ}
    {rows done result : List ρ}
    {count : Nat}
    {holds : ρ → Prop}
    (keeps : ∀ row changed, change row = .ok changed → holds row → holds changed)
    (updated : updateRows uniques select change done rows = .ok (result, count))
    (before : ∀ row ∈ done ++ rows, holds row) :
    ∀ row ∈ result, holds row := by
  induction rows generalizing done result count with
  | nil =>
      cases updated
      simpa using before
  | cons row rest ih =>
      have first := before row (by simp)
      rw [updateRows] at updated
      split at updated
      · rcases bind_eq_ok.mp updated with ⟨changed, changes, continued⟩
        split at continued
        · cases continued
        · rcases bind_eq_ok.mp continued with ⟨⟨further, more⟩, there, last⟩
          cases last
          refine ih there fun other member => ?_
          simp only [List.append_assoc, List.mem_append, List.mem_singleton] at member before
          rcases member with earlier | rfl | later
          · exact before other (.inl earlier)
          · exact keeps row other changes first
          · exact before other (.inr (List.mem_cons_of_mem _ later))
      · exact ih updated (by simpa using before)

/-! ## Tended records -/

namespace Tables

/-- The organizations and users were written by nothing but the statements about them. -/
inductive Tended : Tables → Prop
  | vacant {tables : Tables}
      (orgs : tables.orgs = [])
      (users : tables.users = []) :
      Tended tables
  /-- Something else than organizations and users was written. -/
  | aside {before after : Tables}
      (tended : Tended before)
      (orgs : after.orgs = before.orgs)
      (users : after.users = before.users) :
      Tended after
  | orgInserted {before after : Tables} {org : Org}
      (tended : Tended before)
      (inserted : before.insertOrg (.ofOrg org) = .ok after) :
      Tended after
  | orgUpdated {before after : Tables} {org : Org} {expected : Signature} {found : Bool}
      (tended : Tended before)
      (updated : before.updateOrg org expected = .ok (after, found)) :
      Tended after
  | userInserted {before after : Session} {ring : KeyRing} {user : User}
      (tended : Tended before.tables)
      (inserted : (user.insert ring).Gives before () after) :
      Tended after.tables
  | userUpdated {before after : Session} {ring : KeyRing} {user : User}
      {expected : Signature} {found : Bool}
      (tended : Tended before.tables)
      (updated : (user.overwrite ring expected).Gives before found after) :
      Tended after.tables

/-- Every row is the row of a record, and no two rows of a kind have one identifier. -/
structure Intact (tables : Tables) : Prop where
  written : ∀ kind, ∀ row ∈ tables.rows kind, kind.Written row
  distinct : ∀ kind, (tables.rows kind).Pairwise fun row other =>
    kind.idCell row ≠ kind.idCell other

namespace Intact

theorem empty : Tables.empty.Intact :=
  ⟨Sound.empty.written, Sound.empty.distinct⟩

variable {before after : Tables} {kind : RecordKind}

/-- What is written besides organizations and users does not matter. -/
theorem of_same
    (intact : before.Intact)
    (orgs : after.orgs = before.orgs)
    (users : after.users = before.users) :
    after.Intact := by
  have same (kind : RecordKind) : after.rows kind = before.rows kind := by
    cases kind with
    | org => exact orgs
    | user => exact users
  constructor
  · intro kind
    rw [same]
    exact intact.written kind
  · intro kind
    rw [same]
    exact intact.distinct kind

/-- If rows of one kind are put in place, it is enough to look at them. -/
theorem restored
    (intact : before.Intact)
    {rows : List kind.Row}
    (written : ∀ row ∈ rows, kind.Written row)
    (distinct : rows.Pairwise fun row other => kind.idCell row ≠ kind.idCell other) :
    (kind.view.restore before rows).Intact := by
  constructor
  · intro other
    by_cases sameKind : other = kind
    · subst sameKind
      rwa [rows_restore]
    · rw [rows_restore_of_ne sameKind]
      exact intact.written other
  · intro other
    by_cases sameKind : other = kind
    · subst sameKind
      rwa [rows_restore]
    · rw [rows_restore_of_ne sameKind]
      exact intact.distinct other

/-- A row of a record can be inserted. -/
theorem inserted
    (intact : before.Intact)
    (kind : RecordKind)
    {row : kind.Row}
    {rows : List kind.Row}
    (written : kind.Written row)
    (accepted : insertRow kind.view.uniques row (before.rows kind) = .ok rows) :
    (kind.view.restore before rows).Intact := by
  rcases insertRow_eq_ok.mp accepted with ⟨apart, rfl⟩
  rcases written.holds.1 with ⟨id, holds⟩
  rcases kind.exists_unique_id with ⟨unique, rule, clash⟩
  refine intact.restored ?_ ?_
  · intro other member
    rcases List.mem_append.mp member with old | new
    · exact intact.written kind other old
    · rwa [List.mem_singleton.mp new]
  · rw [List.pairwise_append]
    refine ⟨intact.distinct kind, List.pairwise_singleton _ _, ?_⟩
    intro other member new isNew
    have differs := apart unique rule other member
    rw [clash, holds] at differs
    rw [List.mem_singleton.mp isNew, holds]
    exact Cell.clashes_eq_false.mp differs

/-- Rows can be changed if what they become is the row of a record under their identifier. -/
theorem updated
    (intact : before.Intact)
    (kind : RecordKind)
    {select : kind.Row → Bool}
    (change : kind.Row → kind.Row)
    {rows : List kind.Row}
    {count : Nat}
    (sameId : ∀ row, kind.idCell (change row) = kind.idCell row)
    (writes : ∀ row, kind.Written row → kind.Written (change row))
    (updated : updateRows kind.view.uniques select (fun row => .ok (change row)) []
      (before.rows kind) = .ok (rows, count)) :
    (kind.view.restore before rows).Intact := by
  have sameIds : rows.map kind.idCell = (before.rows kind).map kind.idCell := by
    refine map_updateRows kind.idCell ?_ updated
    rintro row _ ⟨⟩
    exact sameId row
  refine intact.restored ?_ ?_
  · refine forall_updateRows ?_ updated (intact.written kind)
    rintro row _ ⟨⟩ written
    exact writes row written
  · have differ := List.pairwise_map.mpr (intact.distinct kind)
    rw [← sameIds] at differ
    exact List.pairwise_map.mp differ

end Intact

/-- Tended records are intact. -/
theorem Tended.intact
    {tables : Tables}
    (tended : tables.Tended) :
    tables.Intact := by
  induction tended with
  | vacant orgs users => exact Intact.empty.of_same orgs users
  | aside tended orgs users ih => exact ih.of_same orgs users
  | orgInserted tended inserted ih =>
      rcases bind_eq_ok.mp inserted with ⟨rows, accepted, last⟩
      cases last
      exact ih.inserted .org ⟨_, rfl⟩ accepted
  | @orgUpdated before after org expected found tended updated ih =>
      rcases bind_eq_ok.mp updated with ⟨⟨rows, count⟩, changed, last⟩
      cases last
      refine ih.updated .org (fun row => OrgRow.overwritten row org) ?_ ?_ changed
      · exact fun row => rfl
      · rintro _ ⟨stored, rfl⟩
        exact ⟨_, OrgRow.overwritten_ofOrg stored org⟩
  | userInserted tended inserted ih =>
      simp only [User.insert, Work.gives_bind, Work.gives_execute] at inserted
      rcases inserted with ⟨texts, middle, encloses, after, inserts, rfl⟩
      rw [(User.sealTexts_gives encloses).1] at inserts
      rcases bind_eq_ok.mp inserts with ⟨rows, accepted, last⟩
      cases last
      exact ih.inserted .user ⟨_, _, rfl⟩ accepted
  | @userUpdated before after ring user expected found tended updated ih =>
      simp only [User.overwrite, Work.gives_bind, Work.gives_answer] at updated
      rcases updated with ⟨texts, middle, encloses, after, writes, rfl⟩
      rw [(User.sealTexts_gives encloses).1] at writes
      rcases bind_eq_ok.mp writes with ⟨⟨rows, count⟩, changed, last⟩
      cases last
      refine ih.updated .user (fun row => UserRow.overwritten row user texts) ?_ ?_
        changed
      · exact fun row => rfl
      · rintro _ ⟨stored, sealedTexts, rfl⟩
        exact ⟨_, _, UserRow.overwritten_ofUser stored user sealedTexts texts⟩

end Tables

/-! ## Runs -/

section

variable {ring : KeyRing} {before after : Session}

/-- A change tends the records if the statement does that writes its record. -/
theorem Work.mutate_tended
    {R : Type}
    [Versioned R]
    [Kept R]
    {id : Id (Versioned.idKind R)}
    {expected : Signature}
    {change : R → Work R}
    {mutation : Mutation R}
    (tends : ∀ (record : R) (start written : Session), start.tables.Tended →
      (Versioned.overwrite ring record expected).Gives start true written →
        written.tables.Tended)
    (looks : LooksAtRecord change)
    (sound : before.tables.Sound)
    (tended : before.tables.Tended)
    (given : (mutate ring id expected change).Gives before mutation after) :
    after.tables.Tended := by
  obtain ⟨loaded, changed, written, registered, steps⟩ := mutate_steps looks given
  have overwrites := steps.overwrites
  have writtenTended := tends mutation.record (afterUuid (afterClock before)) written tended
    overwrites
  obtain ⟨-, registers⟩ := register_eq_ok.mp steps.registers
  rcases Kept.overwritten overwrites with ⟨old, new, overwritten⟩
  have numbered : registered.tables.Numbered := by
    rw [registers]
    exact overwritten.numbered sound
  rcases Kept.found (sound.written _) steps.found with ⟨row, -, shows⟩
  obtain ⟨-, -, -, -, -, -, -, noted⟩ := note_gives steps.notes numbered shows overwritten.shows
  rw [noted, registers]
  exact .aside writtenTended rfl rfl

namespace Directory

theorem mutateOrg_tended
    {id : OrgId}
    {expected : Signature}
    {change : Org → Work Org}
    {mutation : Mutation Org}
    (looks : Work.LooksAtRecord change)
    (sound : before.tables.Sound)
    (tended : before.tables.Tended)
    (given : (Work.mutate ring id expected change).Gives before mutation after) :
    after.tables.Tended := by
  refine Work.mutate_tended ?_ looks sound tended given
  intro org start written tended overwrites
  rcases Work.gives_answer.mp overwrites with ⟨tables, updated, rfl⟩
  exact .orgUpdated tended updated

theorem mutateUser_tended
    {id : UserId}
    {expected : Signature}
    {change : User → Work User}
    {mutation : Mutation User}
    (looks : Work.LooksAtRecord change)
    (sound : before.tables.Sound)
    (tended : before.tables.Tended)
    (given : (Work.mutate ring id expected change).Gives before mutation after) :
    after.tables.Tended :=
  Work.mutate_tended (fun _ _ _ tended overwrites => .userUpdated tended overwrites) looks sound
    tended given

theorem insertUser_tended
    {org : OrgId}
    {new : NewUser}
    {user : User}
    (tended : before.tables.Tended)
    (given : (insertUser ring org new).Gives before user after) :
    after.tables.Tended := by
  simp only [insertUser, Work.gives_bind, Work.gives_freshId, Work.gives_execute,
    Work.gives_pure] at given
  obtain ⟨id, _, ⟨-, rfl⟩, stamp, stamped, stamps, _, inserted, inserts, -, _,
    ⟨final, registers, rfl⟩, rfl, rfl⟩ := given
  obtain ⟨-, rfl⟩ := register_eq_ok.mp registers
  have begun : (Work.afterUuid before).tables.Tended := tended
  rw [← (initialStamp_gives stamps).tables] at begun
  exact .aside (.userInserted begun inserts) rfl rfl

theorem insertOrg_tended
    {name : String}
    {new : NewOrg}
    {created : CreatedOrg}
    (tended : before.tables.Tended)
    (given : (insertOrg ring name new).Gives before created after) :
    after.tables.Tended := by
  simp only [insertOrg, Work.gives_bind, Work.gives_freshId, Work.gives_execute,
    Work.gives_require, Work.gives_pure] at given
  obtain ⟨id, _, ⟨-, rfl⟩, owner, middle, inserts, stamp, stamped, stamps, -, _, ⟨-, rfl⟩,
    -, _, ⟨tables, insertsOrg, rfl⟩, -, _, ⟨final, registers, rfl⟩, rfl, rfl⟩ := given
  obtain ⟨-, rfl⟩ := register_eq_ok.mp registers
  have begun : (Work.afterUuid before).tables.Tended := tended
  have ownerTended := insertUser_tended begun inserts
  rw [← (initialStamp_gives stamps).tables] at ownerTended
  exact .aside (.orgInserted ownerTended insertsOrg) rfl rfl

theorem changeUser_tended
    {id : UserId}
    {expected : Signature}
    {change : User → User}
    {mutation : Mutation User}
    (sound : before.tables.Sound)
    (tended : before.tables.Tended)
    (given : (changeUser ring id expected change).Gives before mutation after) :
    after.tables.Tended := by
  rcases Work.gives_transaction.mp given with ⟨middle, changes, rfl⟩
  rw [Work.tables_commit]
  exact mutateUser_tended (Work.looksAtRecord_require _ _ change) sound tended changes

end Directory

/-- An accepted request writes records by the four statements. -/
theorem Request.tended
    {request : Request}
    {response : Response}
    (sound : before.tables.Sound)
    (tended : before.tables.Tended)
    (given : (request.perform ring).Gives before response after) :
    after.tables.Tended := by
  cases request with
  | createOrg new =>
      simp only [perform, Work.gives_bind, Work.gives_pure] at given
      rcases given with ⟨created, _, creates, -, rfl⟩
      rcases Directory.createOrg_gives creates with
        ⟨inserted, middle, final, inserts, promotes, rfl⟩
      rcases Directory.promoteOwner_gives promotes with ⟨mutation, mutates, -⟩
      rcases Directory.insertOrg_gives inserts with ⟨ownerTables, texts, owner, org, -, -⟩
      have soundThen := (Undergoes.inserted org).sound ((Undergoes.inserted owner).sound sound)
      rw [Work.tables_commit]
      exact Directory.mutateUser_tended (Work.looksAtRecord_pure _) soundThen
        (Directory.insertOrg_tended tended inserts) mutates
  | createUser org new =>
      simp only [perform, Work.gives_bind, Work.gives_pure] at given
      rcases given with ⟨user, _, creates, -, rfl⟩
      rcases Directory.createUser_gives creates with ⟨final, inserts, rfl⟩
      rw [Work.tables_commit]
      exact Directory.insertUser_tended tended inserts
  | setOrgStatus id expected status =>
      simp only [perform, Work.gives_bind, Work.gives_pure] at given
      rcases given with ⟨mutation, _, changes, -, rfl⟩
      rcases Work.gives_transaction.mp changes with ⟨middle, mutates, rfl⟩
      rw [Work.tables_commit]
      exact Directory.mutateOrg_tended (Work.looksAtRecord_pure _) sound tended mutates
  | setOwner id expected owner =>
      simp only [perform, Directory.setOwner, Work.gives_bind, Work.gives_pure,
        Work.gives_transaction] at given
      rcases given with ⟨mutation, _, ⟨final, ⟨_, middle, isMember, mutates⟩, rfl⟩, -, rfl⟩
      obtain rfl := Directory.requireMember_gives isMember
      rw [Work.tables_commit]
      exact Directory.mutateOrg_tended (Work.looksAtRecord_pure _) sound tended mutates
  | renameOrg id expected name =>
      simp only [perform, Work.gives_bind, Work.gives_pure] at given
      rcases given with ⟨mutation, _, changes, -, rfl⟩
      rcases Work.gives_transaction.mp changes with ⟨middle, mutates, rfl⟩
      rw [Work.tables_commit]
      exact Directory.mutateOrg_tended (Work.looksAtRecord_require _ _ _) sound tended mutates
  | setDisplayName _ _ _ | setPublicKey _ _ _ | setEmail _ _ _ | setPassword _ _ _
  | setUserStatus _ _ _ | rekey _ _ =>
      simp only [perform, Work.gives_bind, Work.gives_pure] at given
      rcases given with ⟨mutation, _, changes, -, rfl⟩
      exact Directory.changeUser_tended sound tended changes

end

theorem Event.tended
    {session : Session}
    (event : Event)
    (sound : session.tables.Sound)
    (tended : session.tables.Tended) :
    (event.step session).tables.Tended := by
  cases event with
  | performed ring request =>
      rcases ran : (request.perform ring).runIn session with ⟨outcome, after⟩
      cases outcome with
      | ok response =>
          rw [step_performed ran]
          exact Request.tended sound tended ran
      | error fault =>
          have idle := Request.rests_of_fails ran
          simp only [step, ran]
          exact .aside tended idle.orgs idle.users
  | answered ring query =>
      rw [step, Query.onlyReads]
      exact tended
  | reopened =>
      have idle := rests_founded session.tables
      exact .aside tended idle.orgs idle.users

/-- Runs leave records tended, so what holds of tended records holds wherever a run ends. -/
theorem Session.tended_after
    {session : Session}
    (events : List Event)
    (sound : session.tables.Sound)
    (tended : session.tables.Tended) :
    (session.after events).tables.Tended := by
  induction events generalizing session with
  | nil => exact tended
  | cons event events ih =>
      exact ih ((event.evolves sound).sound sound) (event.tended sound tended)

end SealedDirectory
