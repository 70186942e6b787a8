import SealedDirectory.Proofs.Directory.Ending
import SealedDirectory.Proofs.Directory.Step

/-!
# What a run reaches

In every run that starts with an empty store the tables stay sound, and they go through
the deeds of the run's history one after the other.  A request that fails, a query and
an opening of the store add no deed.  What an event shows to its caller is stored after
the event.
-/

namespace SealedDirectory

namespace Tables

variable {tables : Tables}

/-! ## Failures and openings -/

/-- Raising a mark touches nothing but marks. -/
theorem raiseMark_eq (tables : Tables) (sequence : Sequence) (value : Int) :
    tables.raiseMark sequence value =
      { tables with marks := (tables.raiseMark sequence value).marks } := by
  rw [raiseMark]
  split <;> rfl

/-- A mark that is raised stays a number. -/
theorem rests_raiseMark (tables : Tables) (sequence : Sequence) (value : Int) :
    Rests tables (tables.raiseMark sequence value) := by
  have raised : tables.Marked → (tables.raiseMark sequence value).Marked := by
    intro marked other mark member named
    simp only [raiseMark] at member
    split at member
    · rcases List.mem_map.mp member with ⟨old, stored, rfl⟩
      split at named
      · next ours =>
          rcases marked sequence old stored ours with ⟨number, holds⟩
          simp only [ours, if_true, holds, higher_holds]
          exact ⟨_, rfl⟩
      · next notOurs =>
          rw [if_neg notOurs]
          exact marked other old stored named
    · rcases List.mem_append.mp member with old | new
      · exact marked other mark old named
      · rw [List.mem_singleton.mp new]
        exact ⟨value, rfl⟩
  rw [raiseMark_eq] at raised ⊢
  exact ⟨rfl, rfl, rfl, rfl, raised⟩

theorem Rests.refl (tables : Tables) : Rests tables tables :=
  ⟨rfl, rfl, rfl, rfl, fun marked => marked⟩

theorem Rests.trans
    {before middle after : Tables}
    (first : Rests before middle)
    (second : Rests middle after) :
    Rests before after :=
  ⟨second.orgs.trans first.orgs, second.users.trans first.users,
    second.trail.trans first.trail, second.registry.trans first.registry,
    fun marked => second.marked (first.marked marked)⟩

theorem rests_rollback (session : Session) :
    Rests tables (Work.rollback tables session).tables := by
  simp only [Work.rollback, Marks.save]
  split
  · exact (rests_raiseMark _ _ _).trans (rests_raiseMark _ _ _)
  · exact .refl tables

theorem rests_founded (tables : Tables) : Rests tables tables.founded := by
  rw [founded]
  split
  · exact .refl tables
  · exact ⟨rfl, rfl, rfl, rfl, fun marked => marked⟩

/-! ## Records that are read -/

theorem mapM_eq_ok_mem
    {ε α β : Type} {f : α → Except ε β} {items : List α} {results : List β}
    (mapped : items.mapM f = .ok results) :
    ∀ result ∈ results, ∃ item ∈ items, f item = .ok result := by
  induction items generalizing results with
  | nil =>
      cases mapped
      simp
  | cons item items ih =>
      simp only [List.mapM_cons, bind_eq_ok] at mapped
      rcases mapped with ⟨first, here, rest, there, last⟩
      cases last
      intro result member
      rcases List.mem_cons.mp member with rfl | inRest
      · exact ⟨item, by simp, here⟩
      · rcases ih there result inRest with ⟨other, inItems, found⟩
        exact ⟨other, by simp [inItems], found⟩

/-- An organization that is read from a row is current. -/
theorem Sound.current_org
    {row : OrgRow} {org : Org}
    (sound : tables.Sound)
    (member : row ∈ tables.orgs)
    (read : row.toOrg = .ok org) :
    tables.Current org.sight := by
  rcases sound.written .org row member with ⟨stored, rfl⟩
  rw [OrgRow.toOrg_ofOrg, Except.ok.injEq] at read
  subst read
  exact ⟨_, sound.row?_eq_some_iff.mpr ⟨member, rfl⟩, rfl⟩

theorem Sound.current_foundOrg
    {choose : OrgRow → Bool} {org : Org}
    (sound : tables.Sound)
    (found : (tables.orgs.find? choose).mapM OrgRow.toOrg = .ok (some org)) :
    tables.Current org.sight := by
  rcases mapM_eq_ok_some.mp found with ⟨row, chosen, read⟩
  exact sound.current_org (List.mem_of_find?_eq_some chosen) read

/-- A user that is opened from a row is current. -/
theorem Sound.current_user
    {row : UserRow} {stored : StoredUser} {ring : KeyRing} {user : User}
    (sound : tables.Sound)
    (member : row ∈ tables.users)
    (read : row.toStored = .ok stored)
    (opened : stored.opened ring = .ok user) :
    tables.Current user.sight := by
  rcases User.storedIn_of_opened (sound.written .user row member) read opened with ⟨texts, rfl, -⟩
  exact ⟨_, sound.row?_eq_some_iff.mpr ⟨member, rfl⟩, rfl⟩

theorem Sound.current_foundUser
    {ring : KeyRing} {id : UserId} {user : User}
    (sound : tables.Sound)
    (found : tables.user? ring id = .ok (some user)) :
    tables.Current user.sight := by
  simp only [user?, bind_eq_ok] at found
  rcases found with ⟨stored?, asked, opens⟩
  rcases mapM_eq_ok_some.mp opens with ⟨stored, rfl, opened⟩
  rcases mapM_eq_ok_some.mp asked with ⟨row, chosen, read⟩
  exact sound.current_user (List.mem_of_find?_eq_some chosen) read opened

/-- An organization that is found by its name or its identifier is current. -/
theorem Sound.current_findOrg
    {text : String} {org : Org} {before after : Session}
    (sound : before.tables.Sound)
    (given : (Directory.findOrg? text).Gives before (some org) after) :
    before.tables.Current org.sight := by
  simp only [Directory.findOrg?, Directory.orgNamed?, Work.gives_bind, Work.gives_ask] at given
  rcases given with ⟨named, _, ⟨asked, rfl⟩, rest⟩
  cases named with
  | some other =>
      rcases Work.gives_pure.mp rest with ⟨same, -⟩
      cases same
      exact sound.current_foundOrg asked
  | none =>
      cases parsed : Id.parse .org text with
      | ok id =>
          simp only [parsed, Directory.org?, Work.gives_ask] at rest
          exact sound.current_foundOrg rest.1
      | error fault =>
          simp only [parsed, Work.gives_pure] at rest
          cases rest.1

end Tables

open Tables

/-! ## Queries -/

namespace Work

/-- An operation that leaves the session as it is, whether it fails or not. -/
def OnlyReads {α : Type} (work : Work α) : Prop :=
  ∀ session, (work.runIn session).2 = session

variable {α β : Type}

theorem onlyReads_ask (question : Tables → Except Fault α) : (ask question).OnlyReads := by
  intro session
  rw [runIn_ask]

theorem OnlyReads.bind
    {work : Work α} {next : α → Work β}
    (first : work.OnlyReads)
    (rest : ∀ value, (next value).OnlyReads) :
    (work >>= next).OnlyReads := by
  intro session
  have same := first session
  rw [runIn_bind]
  rcases ran : work.runIn session with ⟨outcome, middle⟩
  rw [ran] at same
  cases outcome with
  | error fault => exact same
  | ok value => exact (rest value middle).trans same

end Work

theorem Query.onlyReads (ring : KeyRing) (query : Query) : (query.perform ring).OnlyReads := by
  have answers {α : Type} (question : Tables → Except Fault α) (seen : α → List Sight) :
      Work.OnlyReads (do return seen (← Work.ask question)) :=
    (Work.onlyReads_ask question).bind fun _ _ => rfl
  cases query with
  | org id => exact answers _ _
  | orgNamed name => exact answers _ _
  | orgs => exact answers _ _
  | members group => exact answers _ _
  | user id => exact answers _ _
  | findOrg text =>
      apply Work.OnlyReads.bind _ fun _ _ => rfl
      apply (Work.onlyReads_ask _).bind
      intro found
      cases found with
      | some org => exact fun _ => rfl
      | none =>
          cases Id.parse .org text with
          | ok id => exact Work.onlyReads_ask _
          | error fault => exact fun _ => rfl
  | requiredUser id =>
      apply Work.OnlyReads.bind _ fun _ _ => rfl
      apply (Work.onlyReads_ask _).bind
      intro found
      cases found <;> exact fun _ => rfl

theorem Query.shown
    {ring : KeyRing} {query : Query} {sights : List Sight} {before after : Session}
    (sound : before.tables.Sound)
    (given : (query.perform ring).Gives before sights after) :
    ∀ sight ∈ sights, before.tables.Current sight := by
  intro sight member
  cases query with
  | org id =>
      simp only [perform, Directory.org?, Work.gives_bind, Work.gives_ask,
        Work.gives_pure] at given
      rcases given with ⟨found, _, ⟨asked, rfl⟩, rfl, -⟩
      rcases List.mem_map.mp member with ⟨org, shown, rfl⟩
      obtain rfl := Option.mem_toList.mp shown
      exact sound.current_foundOrg asked
  | orgNamed name =>
      simp only [perform, Directory.orgNamed?, Work.gives_bind, Work.gives_ask,
        Work.gives_pure] at given
      rcases given with ⟨found, _, ⟨asked, rfl⟩, rfl, -⟩
      rcases List.mem_map.mp member with ⟨org, shown, rfl⟩
      obtain rfl := Option.mem_toList.mp shown
      exact sound.current_foundOrg asked
  | findOrg text =>
      simp only [perform, Work.gives_bind, Work.gives_pure] at given
      rcases given with ⟨found, _, finds, rfl, -⟩
      rcases List.mem_map.mp member with ⟨org, shown, rfl⟩
      obtain rfl := Option.mem_toList.mp shown
      exact sound.current_findOrg finds
  | orgs =>
      simp only [perform, Directory.orgs, Work.gives_bind, Work.gives_ask,
        Work.gives_pure] at given
      rcases given with ⟨orgs, _, ⟨asked, rfl⟩, rfl, -⟩
      rcases List.mem_map.mp member with ⟨org, shown, rfl⟩
      rcases mapM_eq_ok_mem asked org shown with ⟨row, ordered, read⟩
      exact sound.current_org (List.mem_mergeSort.mp ordered) read
  | members group =>
      simp only [perform, Directory.members, Work.gives_bind, Work.gives_ask,
        Work.gives_pure, Tables.members, bind_eq_ok] at given
      rcases given with ⟨users, _, ⟨⟨stored, asked, opens⟩, rfl⟩, rfl, -⟩
      rcases List.mem_map.mp member with ⟨user, shown, rfl⟩
      rcases mapM_eq_ok_mem opens user shown with ⟨kept, there, opened⟩
      rcases mapM_eq_ok_mem asked kept there with ⟨row, ordered, read⟩
      have chosen := List.mem_mergeSort.mp ordered
      exact sound.current_user (List.mem_filter.mp chosen).1 read opened
  | user id =>
      simp only [perform, Directory.user?, Work.gives_bind, Work.gives_ask,
        Work.gives_pure] at given
      rcases given with ⟨found, _, ⟨asked, rfl⟩, rfl, -⟩
      rcases List.mem_map.mp member with ⟨user, shown, rfl⟩
      obtain rfl := Option.mem_toList.mp shown
      exact sound.current_foundUser asked
  | requiredUser id =>
      simp only [perform, Directory.requireUser, Work.gives_bind, Work.gives_load,
        Work.gives_pure] at given
      rcases given with ⟨user, _, ⟨asked, rfl⟩, rfl, -⟩
      rw [List.mem_singleton.mp member]
      exact sound.current_foundUser asked

/-! ## Events and runs -/

/-- A request that fails lets the tables rest. -/
theorem Request.rests_of_fails
    {ring : KeyRing} {request : Request} {before after : Session} {fault : Fault}
    (fails : (request.perform ring).Fails before fault after) :
    Rests before.tables after.tables := by
  cases request.ends ring before with
  | refused refusal =>
      cases fails.symm.trans refusal
      exact .refl before.tables
  | failed reaches failure =>
      cases fails.symm.trans failure
      exact rests_rollback _
  | succeeded reaches stores gives => cases fails.symm.trans gives

namespace Event

variable {session : Session}

/-- An event takes the tables through its deeds. -/
theorem evolves (event : Event) (sound : session.tables.Sound) :
    Evolves session.tables (event.deeds session) (event.step session).tables := by
  cases event with
  | performed ring request =>
      rcases ran : (request.perform ring).runIn session with ⟨outcome, after⟩
      cases outcome with
      | ok response =>
          rw [deeds_performed ran, step_performed ran]
          exact (Request.outcome sound ran).evolves
      | error fault =>
          simp only [deeds, Request.deeds, step, ran]
          exact .of_rests (Request.rests_of_fails ran)
  | answered ring query =>
      rw [deeds, step, Query.onlyReads]
      exact .done
  | reopened => exact .of_rests (rests_founded session.tables)

/-- What an event shows is stored after it. -/
theorem shown {event : Event} {sight : Sight}
    (sound : session.tables.Sound)
    (shows : sight ∈ event.sights session) :
    (event.step session).tables.Current sight := by
  cases event with
  | performed ring request =>
      rcases ran : (request.perform ring).runIn session with ⟨outcome, after⟩
      cases outcome with
      | ok response =>
          rw [sights_performed ran] at shows
          rw [step_performed ran]
          exact (Request.outcome sound ran).shown sight shows
      | error fault => simp [sights, ran] at shows
  | answered ring query =>
      rcases ran : (query.perform ring).runIn session with ⟨outcome, after⟩
      cases outcome with
      | ok seen =>
          simp only [sights, ran] at shows
          rw [step, Query.onlyReads]
          exact Query.shown sound ran sight shows
      | error fault => simp [sights, ran] at shows
  | reopened => cases shows

end Event

namespace Session

/-- A run takes sound tables through the deeds of its history. -/
theorem evolves_after
    (session : Session) (events : List Event) (sound : session.tables.Sound) :
    Evolves session.tables (session.history events) (session.after events).tables := by
  induction events generalizing session with
  | nil => exact .done
  | cons event events ih =>
      have first := event.evolves sound
      exact first.append (ih (event.step session) (first.sound sound))

theorem sound_founded (source : Source) : (founded source).tables.Sound :=
  (rests_founded .empty).sound .empty

/-- A run from an empty store takes empty tables through the deeds of its history. -/
theorem evolves_from_empty (source : Source) (events : List Event) :
    Evolves .empty ((founded source).history events) ((founded source).after events).tables :=
  .rests (rests_founded .empty) (evolves_after _ events (sound_founded source))

/-- Nothing is stored in a store that was just founded. -/
theorem row?_founded (source : Source) (kind : RecordKind) (id : Uuid) :
    (founded source).tables.row? kind id = none := by
  have empty : (founded source).tables.rows kind = [] :=
    (rests_founded .empty).rows_eq kind |>.trans (by cases kind <;> rfl)
  rw [row?, empty]
  rfl

/-- In every run from an empty store the tables are sound. -/
theorem sound_after (source : Source) (events : List Event) :
    ((founded source).after events).tables.Sound :=
  (evolves_after _ events (sound_founded source)).sound (sound_founded source)

end Session

end SealedDirectory
