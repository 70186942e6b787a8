import SealedDirectory.Proofs.Directory.Progress

/-!
# The record that a change writes

The row keeps four columns of a record, whatever a change made of them: the identifier,
the time of creation, the place in the order and the version of the layout.  The row of a
user keeps the organization as well, and has its private texts sealed anew.
-/

namespace SealedDirectory

open Tables

variable
  {ring : KeyRing}
  {expected : Signature}
  {before after : Session}

/-! ## What rows keep -/

/-- The organization in the row of a stored one that another one is written over. -/
def Org.overwritten (stored org : Org) : Org :=
  { org with
    id := stored.id
    stamp := { org.stamp with
      created := stored.stamp.created
      order := stored.stamp.order
      layout := stored.stamp.layout } }

theorem OrgRow.overwritten_ofOrg (stored org : Org) :
    (OrgRow.ofOrg stored).overwritten org = .ofOrg (stored.overwritten org) :=
  rfl

/-- The user in the row of a stored one that another one is written over. -/
def User.overwritten (stored user : User) : User :=
  { user with
    id := stored.id
    org := stored.org
    stamp := { user.stamp with
      created := stored.stamp.created
      order := stored.stamp.order
      layout := stored.stamp.layout } }

theorem UserRow.overwritten_ofUser
    (stored user : User)
    (old new : SealedTexts) :
    (UserRow.ofUser stored old).overwritten user new =
      .ofUser (stored.overwritten user) new :=
  rfl

/-- What the row keeps has nothing to do with the private texts. -/
theorem SealedTexts.SealedFor.overwritten
    {texts : SealedTexts}
    {user : User}
    (sealedFor : texts.SealedFor ring user)
    (stored : User) :
    texts.SealedFor ring (stored.overwritten user) :=
  ⟨sealedFor.current, sealedFor.displayName, sealedFor.publicKey, sealedFor.email⟩

namespace Work.Mutates

/-- A change of an organization writes the record over its row. -/
theorem orgOverwritten
    {id : OrgId}
    {change : Org → Work Org}
    {mutation : Mutation Org}
    {old new : (Versioned.kind Org).Row}
    (mutates : Mutates ring id expected change mutation old new before after) :
    new = OrgRow.overwritten old mutation.record := by
  obtain ⟨stamped, written, overwrites, sameTables, rows⟩ := mutates.wrote
  rcases gives_answer.mp overwrites with ⟨tables, updated, rfl⟩
  rcases updateOrg_true updated with ⟨kept, holds, -, overwritten⟩
  have holdsId : kept.id = .holds id := holds.trans (congrArg Cell.holds mutates.sameId)
  rcases overwritten.row?_eq holdsId rfl with ⟨storedBefore, storedAfter⟩
  have storedNow : after.tables.row? .org id.uuid =
      some (kept.overwritten mutation.record) := by
    rw [row?, rows]
    exact storedAfter
  -- The row that was written over is the old one, since both have the identifier.
  rw [sameTables] at storedBefore
  obtain rfl : old = kept :=
    Option.some.inj (mutates.replaced.row?_before.symm.trans storedBefore)
  exact Option.some.inj (mutates.replaced.row?_after.symm.trans storedNow)

/-- A change of a user writes the record over its row, with its texts sealed anew. -/
theorem userOverwritten
    {id : UserId}
    {change : User → Work User}
    {mutation : Mutation User}
    {old new : (Versioned.kind User).Row}
    (mutates : Mutates ring id expected change mutation old new before after) :
    ∃ texts : SealedTexts, texts.SealedFor ring mutation.record ∧
      new = UserRow.overwritten old mutation.record texts := by
  obtain ⟨stamped, written, overwrites, sameTables, rows⟩ := mutates.wrote
  rcases User.overwrite_gives overwrites with ⟨texts, kept, sealedFor, holds, -, overwritten⟩
  have holdsId : kept.id = .holds id := holds.trans (congrArg Cell.holds mutates.sameId)
  rcases overwritten.row?_eq holdsId rfl with ⟨storedBefore, storedAfter⟩
  have storedNow : after.tables.row? .user id.uuid =
      some (kept.overwritten mutation.record texts) := by
    rw [row?, rows]
    exact storedAfter
  rw [sameTables] at storedBefore
  obtain rfl : old = kept :=
    Option.some.inj (mutates.replaced.row?_before.symm.trans storedBefore)
  exact ⟨texts, sealedFor,
    Option.some.inj (mutates.replaced.row?_after.symm.trans storedNow)⟩

/-- The users stay where they are, and one of them is written over. -/
theorem users_eq
    {id : UserId}
    {change : User → Work User}
    {mutation : Mutation User}
    {old new : (Versioned.kind User).Row}
    (mutates : Mutates ring id expected change mutation old new before after) :
    ∃ (stored : UserRow) (earlier later : List UserRow) (texts : SealedTexts),
      before.tables.row? .user id.uuid = some stored ∧
        before.tables.users = earlier ++ stored :: later ∧
        after.tables.users = earlier ++ stored.overwritten mutation.record texts :: later ∧
        texts.SealedFor ring mutation.record := by
  rcases mutates.userOverwritten with ⟨texts, sealedFor, rfl⟩
  rcases mutates.replaced.rows_eq with ⟨earlier, later, placedOld, placedNew, -⟩
  exact ⟨old, earlier, later, texts, mutates.replaced.row?_before, placedOld, placedNew,
    sealedFor⟩

end Work.Mutates

end SealedDirectory
