import SealedDirectory.Record.Org
import SealedDirectory.Record.User
import SealedDirectory.Trail.Entry

/-!
# Watched columns

Some columns of organizations and users are watched: every change of their value is
noted in the trail, in the order of the lists below.  Of the private texts only the
digests of the display name and of the public key are watched; names of
organizations and email addresses leave no mark at all.
-/

namespace SealedDirectory

/-- A watched column of a type of records. -/
structure Watch (α : Type) where
  column : String
  value : α → Json

namespace Org

/-- The owner and the status of an organization are watched. -/
def watched : List (Watch Org) :=
  [⟨"owner", fun org => .text org.owner.bare⟩,
   ⟨"status", fun org => .integer org.stamp.status.code⟩]

end Org

namespace User

/-- The digests of key and name, the key version, the password and the status are watched. -/
def watched : List (Watch User) :=
  [⟨"public_key_digest", fun user => .text user.publicKeyDigest⟩,
   ⟨"display_name_digest", fun user => .text user.displayNameDigest⟩,
   ⟨"key_version", fun user => .text user.keyVersion.bare⟩,
   ⟨"password", fun user => .text user.password⟩,
   ⟨"status", fun user => .integer user.stamp.status.code⟩]

end User

/-- The change of one watched column, if its value differs. -/
def Watch.change? {α : Type} (watch : Watch α) (before after : α) :
    Option (String × Details) :=
  let old := watch.value before
  let new := watch.value after
  if old = new then none else some (watch.column, { old, new })

/-- The changes of all watched columns in their order. -/
def changes {α : Type} (watched : List (Watch α)) (before after : α) :
    List (String × Details) :=
  watched.filterMap fun watch => watch.change? before after

theorem changes_self {α : Type} (watched : List (Watch α)) (record : α) :
    changes watched record record = [] := by
  simp [changes, Watch.change?]

end SealedDirectory
