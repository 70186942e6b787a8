import SealedDirectory.Proofs.Directory.Membership

/-!
# Loading a record that was changed

A change gives the record that it was asked to write, and not the one that is stored.  The
two agree in all that a row has columns for which a change may write, and a renewed stamp has
the time of creation and the place of the stamp before it.  But a row keeps the version of the
layout, and the row of a user its organization, while neither is put back into the record.

So a record is loaded as the change gave it exactly if the change left these alone.  All
changes that requests make do so; a change that does not gives a record which nobody can load.
-/

namespace SealedDirectory

open Tables

/-! ## Records as they are stored -/

/-- A stamp has the time of creation and the place of a stored one. -/
structure Stamp.Continues (stored stamp : Stamp) : Prop where
  created : stamp.created = stored.created
  order : stamp.order = stored.order

/-- An organization differs from what is stored of it by the layout only. -/
theorem Org.overwritten_eq_iff
    {stored org : Org}
    (sameId : org.id = stored.id)
    (continues : stored.stamp.Continues org.stamp) :
    stored.overwritten org = org ↔ org.stamp.layout = stored.stamp.layout := by
  rcases org with ⟨id, name, owner, stamp⟩
  cases stamp
  cases sameId
  cases continues.created
  cases continues.order
  simp [Org.overwritten, eq_comm]

/-- A user differs from what is stored of it by the organization and the layout only. -/
theorem User.overwritten_eq_iff
    {stored user : User}
    (sameId : user.id = stored.id)
    (continues : stored.stamp.Continues user.stamp) :
    stored.overwritten user = user ↔
      user.org = stored.org ∧ user.stamp.layout = stored.stamp.layout := by
  rcases user with ⟨id, org, displayName, publicKey, email, keyVersion, password, stamp⟩
  cases stamp
  cases sameId
  cases continues.created
  cases continues.order
  simp [User.overwritten, eq_comm]

namespace Work

variable
  {ring : KeyRing}
  {expected : Signature}
  {before after : Session}

/-! ## What is loaded after a change -/

/-- What was stored of an organization, what a change made of it, and what is loaded then. -/
structure OrgReloads
    (id : OrgId)
    (change : Org → Work Org)
    (record stored changed : Org)
    (before after : Session) :
    Prop where
  found : before.tables.org? id = .ok (some stored)
  changes : (change stored).Gives before changed before
  loaded : after.tables.org? id = .ok (some (stored.overwritten record))
  /-- What is loaded is the given record if the change left the layout alone, and only then. -/
  same_iff : stored.overwritten record = record ↔ changed.stamp.layout = stored.stamp.layout

/-- What was stored of a user, what a change made of it, and what is loaded then. -/
structure UserReloads
    (ring : KeyRing)
    (id : UserId)
    (change : User → Work User)
    (record stored changed : User)
    (before after : Session) :
    Prop where
  found : before.tables.user? ring id = .ok (some stored)
  changes : (change stored).Gives before changed before
  loaded : after.tables.user? ring id = .ok (some (stored.overwritten record))
  /-- For a user the change must leave the organization alone as well. -/
  same_iff : stored.overwritten record = record ↔
    changed.org = stored.org ∧ changed.stamp.layout = stored.stamp.layout

theorem mutateOrg_reloads
    {id : OrgId}
    {change : Org → Work Org}
    {mutation : Mutation Org}
    (looks : LooksAtRecord change)
    (sound : before.tables.Sound)
    (given : (mutate ring id expected change).Gives before mutation after) :
    ∃ stored changed, OrgReloads id change mutation.record stored changed before after := by
  rcases mutate_steps looks given with ⟨stored, changed, written, registered, steps⟩
  rcases mutate_gives looks sound given with ⟨old, new, mutates⟩
  have found : before.tables.org? id = .ok (some stored) := steps.found
  have placed := org?_eq_some (sound.written .org) found
  cases mutates.replaced.row?_before.symm.trans placed
  have holds : stored.id = id := Cell.holds.inj (sound.row?_eq_some_iff.mp placed).2
  have sameId : mutation.record.id = stored.id := mutates.sameId.trans holds.symm
  have continues : stored.stamp.Continues mutation.record.stamp := by
    rw [steps.record]
    exact ⟨rfl, rfl⟩
  have layout : mutation.record.stamp.layout = changed.stamp.layout := by
    rw [steps.record]
    rfl
  refine ⟨stored, changed, found, steps.changes, ?_, ?_⟩
  · have placedNow := mutates.replaced.row?_after
    rw [mutates.orgOverwritten, OrgRow.overwritten_ofOrg] at placedNow
    exact mapM_eq_ok_some.mpr ⟨_, placedNow, OrgRow.toOrg_ofOrg _⟩
  · rw [Org.overwritten_eq_iff sameId continues, layout]

/-- The texts of a changed user open with the ring that sealed them. -/
theorem mutateUser_reloads
    {id : UserId}
    {change : User → Work User}
    {mutation : Mutation User}
    (looks : LooksAtRecord change)
    (sound : before.tables.Sound)
    (given : (mutate ring id expected change).Gives before mutation after) :
    ∃ stored changed,
      UserReloads ring id change mutation.record stored changed before after := by
  rcases mutate_steps looks given with ⟨stored, changed, written, registered, steps⟩
  rcases mutate_gives looks sound given with ⟨old, new, mutates⟩
  have found : before.tables.user? ring id = .ok (some stored) := steps.found
  rcases user?_eq_some (sound.written .user) found with ⟨_, placed, oldTexts, rfl, -⟩
  cases mutates.replaced.row?_before.symm.trans placed
  have holds : stored.id = id := Cell.holds.inj (sound.row?_eq_some_iff.mp placed).2
  have sameId : mutation.record.id = stored.id := mutates.sameId.trans holds.symm
  have continues : stored.stamp.Continues mutation.record.stamp := by
    rw [steps.record]
    exact ⟨rfl, rfl⟩
  have same : mutation.record.org = changed.org ∧
      mutation.record.stamp.layout = changed.stamp.layout := by
    rw [steps.record]
    exact ⟨rfl, rfl⟩
  rcases mutates.userOverwritten with ⟨texts, sealedFor, overwritten⟩
  refine ⟨stored, changed, found, steps.changes, ?_, ?_⟩
  · have placedNow := mutates.replaced.row?_after
    rw [overwritten, UserRow.overwritten_ofUser] at placedNow
    subst holds
    exact user?_ofUser placedNow ((sealedFor.overwritten stored).openTo rfl)
  · rw [User.overwritten_eq_iff sameId continues, same.1, same.2]

end Work

open Work

/-! ## The main statement -/

/--
In every store that a run reaches, after a change that looks at the record only, the record is
loaded with the same ring as the change gave it, but for the layout and, for a user, the
organization, which are loaded as they were stored before.  So what is loaded is what the
change gave if and only if the change left these alone.
-/
theorem changes_are_loaded_but_for_what_rows_keep
    (source : Source)
    (events : List Event)
    (ring : KeyRing)
    (expected : Signature)
    (after : Session) :
    (∀ (id : OrgId) (change : Org → Work Org) (mutation : Mutation Org),
      LooksAtRecord change →
      (mutate ring id expected change).Gives ((Session.founded source).after events)
        mutation after →
      ∃ stored changed, OrgReloads id change mutation.record stored changed
        ((Session.founded source).after events) after) ∧
    ∀ (id : UserId) (change : User → Work User) (mutation : Mutation User),
      LooksAtRecord change →
      (mutate ring id expected change).Gives ((Session.founded source).after events)
        mutation after →
      ∃ stored changed, UserReloads ring id change mutation.record stored changed
        ((Session.founded source).after events) after := by
  have sound := Session.sound_after source events
  exact ⟨fun _ _ _ looks given => mutateOrg_reloads looks sound given,
    fun _ _ _ looks given => mutateUser_reloads looks sound given⟩

/-! ## Changes of the first organization -/

namespace Sample

/-- A change of the first organization that a function makes is accepted. -/
theorem mutates_first
    (change : Org → Org)
    (sameId : ∀ org, (change org).id = org.id) :
    ∃ (id : OrgId) (expected : Signature) (mutation : Mutation Org) (after : Session),
      (mutate ring id expected fun org : Org => return change org).Gives
        ((Session.founded source).after founding) mutation after := by
  rcases after_founding with ⟨created, first⟩
  rcases first.mutateOrg_succeeds drawsApart_source (fun org => return change org)
    (pure_succeeds _ (change created.org)) (sameId _) with ⟨mutation, after, given⟩
  exact ⟨_, _, mutation, after, given⟩

end Sample

/-- The first organization is loaded with a new status as the change of it was given. -/
theorem first_status_is_loaded :
    ∃ (id : OrgId) (expected : Signature) (mutation : Mutation Org) (after : Session),
      (mutate Sample.ring id expected fun org : Org =>
          return { org with stamp := { org.stamp with status := .active } }).Gives
        ((Session.founded Sample.source).after Sample.founding) mutation after ∧
      after.tables.org? id = .ok (some mutation.record) := by
  rcases Sample.mutates_first
    (fun org => { org with stamp := { org.stamp with status := .active } })
    (fun _ => rfl) with ⟨id, expected, mutation, after, given⟩
  refine ⟨id, expected, mutation, after, given, ?_⟩
  rcases (changes_are_loaded_but_for_what_rows_keep Sample.source Sample.founding Sample.ring
    expected after).1 id _ mutation (looksAtRecord_pure _) given with ⟨stored, changed, reloads⟩
  have same : changed.stamp.layout = stored.stamp.layout := by
    rw [(gives_pure.mp reloads.changes).1]
  rw [reloads.loaded, reloads.same_iff.mpr same]

/-- A change that moves the layout on gives an organization that is not what is loaded then. -/
theorem moved_layout_is_not_loaded :
    ∃ (id : OrgId) (expected : Signature) (mutation : Mutation Org) (after : Session),
      (mutate Sample.ring id expected fun org : Org =>
          return { org with stamp := { org.stamp with layout := org.stamp.layout + 1 } }).Gives
        ((Session.founded Sample.source).after Sample.founding) mutation after ∧
      after.tables.org? id ≠ .ok (some mutation.record) := by
  rcases Sample.mutates_first
    (fun org => { org with stamp := { org.stamp with layout := org.stamp.layout + 1 } })
    (fun _ => rfl) with ⟨id, expected, mutation, after, given⟩
  refine ⟨id, expected, mutation, after, given, ?_⟩
  have sound := Session.sound_after Sample.source Sample.founding
  rcases mutateOrg_reloads (looksAtRecord_pure _) sound given with ⟨stored, changed, reloads⟩
  intro same
  rw [reloads.loaded, Except.ok.injEq, Option.some.injEq, reloads.same_iff,
    (gives_pure.mp reloads.changes).1] at same
  have moved : stored.stamp.layout + 1 = stored.stamp.layout := same
  omega

end SealedDirectory
