import SealedDirectory.Proofs.Directory.Writing

/-!
# Links between organizations and users

The store declares no links between its tables.  Still the owner of every organization is
one of its members, and the organization of every user is stored: an organization is
founded together with its owner, a user joins a stored organization, an organization is
handed to members only, and nobody changes the organization of a user.  Every
organization has a proper name as well.
-/

namespace SealedDirectory.Tables

variable {before after : Tables}

/-- Owners are members of their organizations, and users are members of stored ones. -/
structure Linked (tables : Tables) : Prop where
  owned : ∀ org ∈ tables.orgs, ∃ user ∈ tables.users, user.id = org.owner ∧ user.org = org.id
  housed : ∀ user ∈ tables.users, ∃ org ∈ tables.orgs, org.id = user.org
  proper : ∀ org ∈ tables.orgs, Org.Proper org.name

/-- One row gives place to another one among rows that stay. -/
theorem mem_of_replaced
    {ρ : Type}
    {earlier later rows next : List ρ}
    {old new : ρ}
    (placed : rows = earlier ++ old :: later)
    (result : next = earlier ++ new :: later) :
    (∀ row, row ∈ rows ↔ row = old ∨ row ∈ earlier ++ later) ∧
      ∀ row, row ∈ next ↔ row = new ∨ row ∈ earlier ++ later := by
  subst placed result
  exact ⟨fun row => List.perm_middle.mem_iff.trans List.mem_cons,
    fun row => List.perm_middle.mem_iff.trans List.mem_cons⟩

namespace Linked

theorem empty : Tables.empty.Linked where
  owned := by
    intro org member
    cases member
  housed := by
    intro user member
    cases member
  proper := by
    intro org member
    cases member

theorem founded
    {org : Org}
    {owner : UserRow}
    (linked : before.Linked)
    (orgs : after.orgs = before.orgs ++ [OrgRow.ofOrg org])
    (users : after.users = before.users ++ [owner])
    (owns : owner.id = .holds org.owner)
    (belongs : owner.org = .holds org.id)
    (proper : Org.Proper org.name) :
    after.Linked := by
  have newOrg : OrgRow.ofOrg org ∈ after.orgs := by simp [orgs]
  have newUser : owner ∈ after.users := by simp [users]
  have orgsStay {row : OrgRow} (member : row ∈ before.orgs) : row ∈ after.orgs := by
    rw [orgs]
    exact List.mem_append_left _ member
  have usersStay {row : UserRow} (member : row ∈ before.users) : row ∈ after.users := by
    rw [users]
    exact List.mem_append_left _ member
  constructor
  · intro row member
    rw [orgs, List.mem_append, List.mem_singleton] at member
    rcases member with old | rfl
    · rcases linked.owned row old with ⟨user, stored, linkedTo⟩
      exact ⟨user, usersStay stored, linkedTo⟩
    · exact ⟨owner, newUser, owns, belongs⟩
  · intro row member
    rw [users, List.mem_append, List.mem_singleton] at member
    rcases member with old | rfl
    · rcases linked.housed row old with ⟨house, stored, same⟩
      exact ⟨house, orgsStay stored, same⟩
    · exact ⟨_, newOrg, belongs.symm⟩
  · intro row member
    rw [orgs, List.mem_append, List.mem_singleton] at member
    rcases member with old | rfl
    · exact linked.proper row old
    · exact proper

theorem joined
    {user : UserRow}
    (linked : before.Linked)
    (users : after.users = before.users ++ [user])
    (orgs : after.orgs = before.orgs)
    (belongs : ∃ org ∈ before.orgs, org.id = user.org) :
    after.Linked := by
  constructor
  · intro row member
    rw [orgs] at member
    rcases linked.owned row member with ⟨owner, stored, linkedTo⟩
    rw [users]
    exact ⟨owner, List.mem_append_left _ stored, linkedTo⟩
  · intro row member
    rw [users, List.mem_append, List.mem_singleton] at member
    rw [orgs]
    rcases member with old | rfl
    · exact linked.housed row old
    · exact belongs
  · rw [orgs]
    exact linked.proper

/-- An organization keeps its identifier, so its members find it where it was. -/
theorem orgRewritten
    {old new : Org}
    (linked : before.Linked)
    (rewritten : OrgRewritten old new before after)
    (owner : new.owner = old.owner ∨ before.HasMember new.owner old.id)
    (name : new.name = old.name ∨ Org.Proper new.name) :
    after.Linked := by
  rcases rewritten.place with ⟨earlier, later, placed, result⟩
  rcases mem_of_replaced placed result with ⟨wasThere, isThere⟩
  have oldThere : OrgRow.ofOrg old ∈ before.orgs := (wasThere _).mpr (.inl rfl)
  have sameCell : (OrgRow.ofOrg new).id = (OrgRow.ofOrg old).id :=
    congrArg Cell.holds rewritten.sameId
  constructor
  · intro row member
    rw [rewritten.users]
    rcases (isThere row).mp member with rfl | kept
    · rcases owner with same | ⟨user, stored, owns, belongs⟩
      · rcases linked.owned _ oldThere with ⟨user, stored, owns, belongs⟩
        exact ⟨user, stored, owns.trans (congrArg Cell.holds same.symm),
          belongs.trans sameCell.symm⟩
      · exact ⟨user, stored, owns, belongs.trans sameCell.symm⟩
    · exact linked.owned row ((wasThere row).mpr (.inr kept))
  · intro row member
    rw [rewritten.users] at member
    rcases linked.housed row member with ⟨org, stored, same⟩
    rcases (wasThere org).mp stored with rfl | kept
    · exact ⟨_, (isThere _).mpr (.inl rfl), sameCell.trans same⟩
    · exact ⟨org, (isThere org).mpr (.inr kept), same⟩
  · intro row member
    rcases (isThere row).mp member with rfl | kept
    · rcases name with same | proper
      · have wasProper := linked.proper _ oldThere
        rwa [OrgRow.ofOrg, ← same] at wasProper
      · exact proper
    · exact linked.proper row ((wasThere row).mpr (.inr kept))

/-- A user keeps identifier and organization, and so stays an owner and a member. -/
theorem userRewritten
    {old new : UserRow}
    (linked : before.Linked)
    (rewritten : UserRewritten old new before after) :
    after.Linked := by
  rcases rewritten.place with ⟨earlier, later, placed, result⟩
  rcases mem_of_replaced placed result with ⟨wasThere, isThere⟩
  constructor
  · intro row member
    rw [rewritten.orgs] at member
    rcases linked.owned row member with ⟨user, stored, owns, belongs⟩
    rcases (wasThere user).mp stored with rfl | kept
    · exact ⟨new, (isThere new).mpr (.inl rfl), rewritten.sameId.trans owns,
        rewritten.sameOrg.trans belongs⟩
    · exact ⟨user, (isThere user).mpr (.inr kept), owns, belongs⟩
  · intro row member
    rw [rewritten.orgs]
    rcases (isThere row).mp member with rfl | kept
    · rw [rewritten.sameOrg]
      exact linked.housed old ((wasThere old).mpr (.inl rfl))
    · exact linked.housed row ((wasThere row).mpr (.inr kept))
  · rw [rewritten.orgs]
    exact linked.proper

theorem writes
    (linked : before.Linked)
    (writes : Writes before after) :
    after.Linked := by
  cases writes with
  | nothing orgs users =>
      constructor
      · rw [orgs, users]
        exact linked.owned
      · rw [orgs, users]
        exact linked.housed
      · rw [orgs]
        exact linked.proper
  | founded orgs users owns belongs proper =>
      exact linked.founded orgs users owns belongs proper
  | joined users orgs belongs => exact linked.joined users orgs belongs
  | orgRewritten rewritten owner name => exact linked.orgRewritten rewritten owner name
  | userRewritten rewritten => exact linked.userRewritten rewritten

theorem writtenFrom
    (linked : before.Linked)
    (written : WrittenFrom before after) :
    after.Linked := by
  induction written with
  | refl => exact linked
  | tail _ last ih => exact ih.writes last

end Linked

/-- Every run leaves linked tables. -/
theorem linked_after
    (source : Source)
    (events : List Event) :
    ((Session.founded source).after events).tables.Linked :=
  (Linked.empty.writes (rests_founded .empty).writes).writtenFrom
    (Session.writtenFrom_after _ events (Session.sound_founded source))

end SealedDirectory.Tables
