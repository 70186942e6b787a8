import SealedDirectory.Proofs.Directory.Refinement

/-!
# Versions and texts of users

Some things hold of every user of a plain store, whichever requests were accepted.  The
version of a user is the current one of a ring that was written with, and the texts of a
user pass the check that new and changed users have to pass.
-/

namespace SealedDirectory

variable {ring : KeyRing} {id : UserId} {plain : PlainUser} {store : PlainStore}

/-! ## Properties of all users -/

/-- All users of a plain store have a property. -/
def PlainStore.All
    (property : PlainUser → Prop)
    (store : PlainStore) :
    Prop :=
  ∀ id user, store id = some user → property user

namespace PlainStore.All

variable {property : PlainUser → Prop}

theorem empty : PlainStore.empty.All property := by
  intro id user held
  cases held

theorem put
    (all : store.All property)
    (holds : property plain) :
    (store.put id plain).All property := by
  intro other user held
  by_cases same : other = id
  · subst same
    rw [PlainStore.put, Function.update_self, Option.some.injEq] at held
    rwa [← held]
  · rw [PlainStore.put, Function.update_of_ne same] at held
    exact all other user held

theorem rewrite
    {edit : PlainUser → PlainUser}
    (all : store.All property)
    (edits : ∀ user, store id = some user →
      property { edit user with keyVersion := ring.current }) :
    (store.rewrite ring id edit).All property := by
  intro other user held
  by_cases same : other = id
  · subst same
    rw [PlainStore.rewrite, Function.update_self, Option.map_eq_some_iff] at held
    rcases held with ⟨earlier, heldThen, rfl⟩
    exact edits earlier heldThen
  · rw [PlainStore.rewrite, Function.update_of_ne same] at held
    exact all other user held

end PlainStore.All

/-- A property that every accepted request keeps holds of all users after a run. -/
theorem Session.all_plain
    {property : PlainUser → Prop}
    (session : Session)
    (events : List Event)
    (keeps : ∀ ring request, .performed ring request ∈ events → ∀ store response,
      store.All property → (request.plainly ring store response).All property)
    (all : store.All property) :
    (session.plain store events).All property := by
  induction events generalizing session store with
  | nil => exact all
  | cons event events ih =>
      apply ih (event.step session)
      · intro ring request member
        exact keeps ring request (List.mem_cons_of_mem _ member)
      · cases event with
        | performed ring request =>
            rw [Event.plainly]
            split
            · exact keeps ring request (List.mem_cons_self ..) store _ all
            · exact all
        | answered ring query => exact all
        | reopened => exact all

/-! ## Versions -/

/-- The version of a plain user is the current one of a ring among others. -/
def PlainUser.UnderOneOf
    (rings : List KeyRing)
    (user : PlainUser) :
    Prop :=
  ∃ ring ∈ rings, user.keyVersion = ring.current

theorem Request.underOneOf
    {rings : List KeyRing}
    (request : Request)
    (response : Response)
    (member : ring ∈ rings)
    (all : store.All (PlainUser.UnderOneOf rings)) :
    (request.plainly ring store response).All (PlainUser.UnderOneOf rings) := by
  have rewritten (id : UserId) (edit : PlainUser → PlainUser) :
      (store.rewrite ring id edit).All (PlainUser.UnderOneOf rings) :=
    all.rewrite fun _ _ => ⟨ring, member, rfl⟩
  cases request with
  | createOrg new =>
      cases response with
      | created created => exact all.put ⟨ring, member, rfl⟩
      | added _ | changedOrg _ | changedUser _ => exact all
  | createUser org new =>
      cases response with
      | added user => exact all.put ⟨ring, member, rfl⟩
      | created _ | changedOrg _ | changedUser _ => exact all
  | setOrgStatus _ _ _ | setOwner _ _ _ | renameOrg _ _ _ => exact all
  | setDisplayName _ _ _ | setPublicKey _ _ _ | setEmail _ _ _ | setPassword _ _ _
  | setUserStatus _ _ _ | rekey _ _ => exact rewritten _ _

/-- Rows have the current versions of rings that were written with. -/
theorem Tables.Refines.version_of_writer
    {rings writers : List KeyRing}
    {tables : Tables}
    {row : UserRow}
    (refines : tables.Refines rings store)
    (sound : tables.Sound)
    (all : store.All (PlainUser.UnderOneOf writers))
    (member : row ∈ tables.users) :
    ∃ ring ∈ writers, row.keyVersion = .holds ring.current := by
  rcases refines.held_of_mem sound member with ⟨id, plain, -, inStore, mirrors⟩
  rcases all id plain inStore with ⟨ring, among, version⟩
  exact ⟨ring, among, mirrors.keyVersion_eq.trans (congrArg Cell.holds version)⟩

/-! ## Texts that pass the check -/

/-- The texts of a plain user pass the check for users. -/
def PlainUser.Checked (user : PlainUser) : Prop :=
  UserRule.check user.displayName user.publicKey user.email user.password = .ok ()

section

variable {rings : List KeyRing} {before after : Session}

namespace Directory

/-- A change of a user is accepted only if the changed texts pass the check. -/
theorem changeUser_checked
    {expected : Signature}
    {change : User → User}
    {mutation : Mutation User}
    (given : (changeUser ring id expected change).Gives before mutation after)
    (sound : before.tables.Sound) :
    ∃ loaded, before.tables.user? ring id = .ok (some loaded) ∧
      (change loaded).check = .ok () := by
  rcases Work.gives_transaction.mp given with ⟨middle, changes, -⟩
  rcases Work.mutate_gives (Work.looksAtRecord_require _ _ change) sound changes with
    ⟨old, new, mutates⟩
  obtain ⟨loaded, changed, stamp, found, checked, -⟩ := mutates.made
  simp only [Work.gives_bind, Work.gives_require] at checked
  obtain ⟨-, _, ⟨passes, -⟩, -⟩ := checked
  exact ⟨loaded, found, passes⟩

theorem changeUser_allChecked
    {expected : Signature}
    {change : User → User}
    {edit : PlainUser → PlainUser}
    {mutation : Mutation User}
    (given : (changeUser ring id expected change).Gives before mutation after)
    (edits : ∀ user, PlainUser.ofUser (change user) = edit (.ofUser user))
    (sound : before.tables.Sound)
    (member : ring ∈ rings)
    (refines : before.tables.Refines rings store)
    (all : store.All PlainUser.Checked) :
    (store.rewrite ring id edit).All PlainUser.Checked := by
  rcases changeUser_checked given sound with ⟨loaded, found, passes⟩
  apply all.rewrite
  intro user inStore
  rcases Tables.user?_eq_some (sound.written .user) found with ⟨row, stored, -⟩
  rcases refines.held stored with ⟨plain, heldNow, mirrors⟩
  obtain rfl : plain = user := Option.some.inj (heldNow.symm.trans inStore)
  have edited := edits loaded
  rw [mirrors.eq_of_loaded stored member found] at edited
  rw [← edited]
  exact passes

end Directory

/-- Accepted requests leave users with texts that pass the check. -/
theorem Request.allChecked
    {request : Request}
    {response : Response}
    (given : (request.perform ring).Gives before response after)
    (sound : before.tables.Sound)
    (member : ring ∈ rings)
    (refines : before.tables.Refines rings store)
    (all : store.All PlainUser.Checked) :
    (request.plainly ring store response).All PlainUser.Checked := by
  cases request with
  | createOrg new =>
      simp only [perform, Directory.createOrg, Work.gives_bind, Work.gives_pure,
        Work.gives_require] at given
      rcases given with ⟨created, _, ⟨-, _, -, -, _, ⟨passes, -⟩, -⟩, rfl, -⟩
      exact all.put passes
  | createUser org new =>
      simp only [perform, Directory.createUser, Work.gives_bind, Work.gives_pure,
        Work.gives_require] at given
      rcases given with ⟨user, _, ⟨-, _, ⟨passes, -⟩, -⟩, rfl, -⟩
      exact all.put passes
  | setOrgStatus _ _ _ | setOwner _ _ _ | renameOrg _ _ _ => exact all
  | setDisplayName _ _ _ | setPublicKey _ _ _ | setEmail _ _ _ | setPassword _ _ _
  | setUserStatus _ _ _ | rekey _ _ =>
      simp only [perform, Work.gives_bind, Work.gives_pure] at given
      rcases given with ⟨mutation, _, changes, rfl, -⟩
      exact Directory.changeUser_allChecked changes (fun _ => rfl) sound member refines all

end

/-- After every run the texts of all users pass the check. -/
theorem Session.allChecked_plain
    {rings : List KeyRing}
    (session : Session)
    (events : List Event)
    (among : ∀ ring ∈ events.flatMap Event.writers, ring ∈ rings)
    (agree : KeyRing.Agree rings)
    (sound : session.tables.Sound)
    (refines : session.tables.Refines rings store)
    (all : store.All PlainUser.Checked) :
    (session.plain store events).All PlainUser.Checked := by
  induction events generalizing session store with
  | nil => exact all
  | cons event events ih =>
      rw [List.flatMap_cons] at among
      have amongHere : ∀ ring ∈ event.writers, ring ∈ rings :=
        fun ring member => among ring (List.mem_append_left _ member)
      apply ih (event.step session)
      · exact fun ring member => among ring (List.mem_append_right _ member)
      · exact (event.evolves sound).sound sound
      · exact event.refines amongHere agree sound refines
      · cases event with
        | performed ring request =>
            rcases ran : (request.perform ring).runIn session with ⟨outcome, after⟩
            cases outcome with
            | ok response =>
                rw [Event.plainly_performed store ran]
                exact Request.allChecked ran sound (amongHere ring (by simp [Event.writers]))
                  refines all
            | error fault =>
                simp only [Event.plainly, ran]
                exact all
        | answered ring query => exact all
        | reopened => exact all

end SealedDirectory
