import SealedDirectory.Proofs.Ident.Canonical
import SealedDirectory.Store.Overwrite

/-!
# Stored records of either kind

Organizations and users are stored in rows of two types.  What the theory says about
both of them is said once, for a kind: which rows there are, which cells of a row hold
the identifier, the signature, the place and the times, and what a row holds in every
column, which is all that somebody who looks into the store can see of it.  Which columns
are watched is written out here; that the records come with these lists is shown where
records are related to their rows.
-/

namespace SealedDirectory

/-! ## The contents of a row -/

/-- What a row holds, column by column. -/
abbrev Contents := List (String × Content)

/-- What a row holds in a column, and nothing in a column that it does not have. -/
def Contents.value (contents : Contents) (column : String) : Content :=
  (contents.lookup column).getD .nothing

/-- What an editor sees of a row. -/
def TableView.contents {ρ : Type} (view : TableView ρ) (row : ρ) : Contents :=
  view.columns.map fun column => (column.name, column.get row)

/-- The value that the details of an entry show for a content. -/
def Content.shown : Content → Json
  | .nothing => .null
  | .integer value => .integer value
  | .double bits => .number (.float bits)
  | .text value => .text value

theorem Content.shown_injective : Function.Injective Content.shown := by
  intro left right same
  cases left <;> cases right <;> simp_all [Content.shown, Json.integer]

/-! ## Rows of a kind -/

namespace RecordKind

/-- The rows in which records of a kind are stored. -/
def Row : RecordKind → Type
  | .org => OrgRow
  | .user => UserRow

def view : (kind : RecordKind) → TableView kind.Row
  | .org => TableView.orgs
  | .user => TableView.users

/-- The kind of the identifiers of records. -/
def idKind : RecordKind → IdKind
  | .org => .org
  | .user => .user

def idCell : (kind : RecordKind) → kind.Row → Cell (Id kind.idKind)
  | .org, row => OrgRow.id row
  | .user, row => UserRow.id row

def signatureCell : (kind : RecordKind) → kind.Row → Cell Signature
  | .org, row => OrgRow.signature row
  | .user, row => UserRow.signature row

/-- The cell of the time of the last change. -/
def changedCell : (kind : RecordKind) → kind.Row → Cell Int
  | .org, row => OrgRow.changed row
  | .user, row => UserRow.changed row

/-- The cell of the place in the order of insertion. -/
def orderCell : (kind : RecordKind) → kind.Row → Cell Int
  | .org, row => OrgRow.order row
  | .user, row => UserRow.order row

/-- What an editor sees of a row of a kind. -/
def contents (kind : RecordKind) (row : kind.Row) : Contents :=
  kind.view.contents row

/-- A row as the directory writes it: the row of some record. -/
def Written : (kind : RecordKind) → kind.Row → Prop
  | .org, row => ∃ org, row = OrgRow.ofOrg org
  | .user, row => ∃ user texts, row = UserRow.ofUser user texts

/-- The columns whose changes the trail has to tell, in the order in which it tells them. -/
def watchedColumns : RecordKind → List String
  | .org => ["owner", "status"]
  | .user =>
      ["public_key_digest", "display_name_digest", "key_version", "password", "status"]

end RecordKind

def Tables.rows (tables : Tables) (kind : RecordKind) : List kind.Row :=
  kind.view.rows tables

def Tables.row? (tables : Tables) (kind : RecordKind) (id : Uuid) : Option kind.Row :=
  (tables.rows kind).find? fun row => kind.idCell row = .holds ⟨id⟩

/-- What is stored of the record of an identifier. -/
def Tables.contents? (tables : Tables) (kind : RecordKind) (id : Uuid) : Option Contents :=
  (tables.row? kind id).map kind.contents

/-! ## Rows in the tables -/

@[simp]
theorem Tables.rows_restore (tables : Tables) (kind : RecordKind) (rows : List kind.Row) :
    (kind.view.restore tables rows).rows kind = rows := by
  cases kind <;> rfl

theorem Tables.rows_restore_of_ne
    {tables : Tables} {kind other : RecordKind} {rows : List kind.Row}
    (apart : other ≠ kind) :
    (kind.view.restore tables rows).rows other = tables.rows other := by
  cases kind <;> cases other <;> first | rfl | exact absurd rfl apart

@[simp]
theorem Tables.trail_restore (tables : Tables) (kind : RecordKind) (rows : List kind.Row) :
    (kind.view.restore tables rows).trail = tables.trail := by
  cases kind <;> rfl

@[simp]
theorem Tables.registry_restore (tables : Tables) (kind : RecordKind) (rows : List kind.Row) :
    (kind.view.restore tables rows).registry = tables.registry := by
  cases kind <;> rfl

@[simp]
theorem Tables.marks_restore (tables : Tables) (kind : RecordKind) (rows : List kind.Row) :
    (kind.view.restore tables rows).marks = tables.marks := by
  cases kind <;> rfl

/-- One of the rules of a table is that identifiers are unique. -/
theorem RecordKind.exists_unique_id (kind : RecordKind) :
    ∃ unique ∈ kind.view.uniques, ∀ row other : kind.Row,
      unique.clash row other = (kind.idCell row).clashes (kind.idCell other) := by
  cases kind with
  | org => exact ⟨_, List.mem_of_getElem? (i := 3) rfl, fun _ _ => rfl⟩
  | user => exact ⟨_, List.mem_of_getElem? (i := 4) rfl, fun _ _ => rfl⟩

/-! ## What cells and columns hold -/

namespace RecordKind

variable {kind : RecordKind}

theorem value_signature (row : kind.Row) :
    (kind.contents row).value "signature" = (kind.signatureCell row).content := by
  cases kind <;> rfl

theorem value_changed (row : kind.Row) :
    (kind.contents row).value "mtime" = (kind.changedCell row).content := by
  cases kind <;> rfl

theorem nodup_watchedColumns (kind : RecordKind) : kind.watchedColumns.Nodup := by
  cases kind <;> decide

/-- The cells of a written row hold what they are for. -/
theorem Written.holds {row : kind.Row} (written : kind.Written row) :
    (∃ id : Uuid, kind.idCell row = .holds ⟨id⟩) ∧
      (∃ signature, kind.signatureCell row = .holds signature) ∧
      (∃ time, kind.changedCell row = .holds time) ∧
      ∃ number, kind.orderCell row = .holds number := by
  cases kind with
  | org =>
      rcases written with ⟨org, rfl⟩
      exact ⟨⟨org.id.uuid, rfl⟩, ⟨_, rfl⟩, ⟨_, rfl⟩, ⟨_, rfl⟩⟩
  | user =>
      rcases written with ⟨user, texts, rfl⟩
      exact ⟨⟨user.id.uuid, rfl⟩, ⟨_, rfl⟩, ⟨_, rfl⟩, ⟨_, rfl⟩⟩

theorem Written.changed_holds {row : kind.Row} (written : kind.Written row) :
    ∃ time, kind.changedCell row = .holds time :=
  written.holds.2.2.1

theorem Written.order_holds {row : kind.Row} (written : kind.Written row) :
    ∃ number, kind.orderCell row = .holds number :=
  written.holds.2.2.2

end RecordKind

end SealedDirectory
