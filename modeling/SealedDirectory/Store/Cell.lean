import SealedDirectory.Fault
import SealedDirectory.Store.Content

/-!
# Cells of stored rows

A column has a type, and whatever the operations of the directory write into it is a
value of that type.  The store itself only promises less: somebody who edits it can
leave a text where a number belongs, or a text that is no identifier.  Such a foreign
content is kept as it is and converted, or refused, when it is read.

A content that is exactly the stored form of a value is that value, so two cells are
equal if and only if the store cannot tell them apart.
-/

namespace SealedDirectory

/-- Why a content cannot be read as a value. -/
inductive CellFault where
  | wrongType (type : String)
  /-- It is a text that cannot be converted. -/
  | unreadable (reason : String)
  deriving DecidableEq, Repr

/-- Types whose values are stored in cells. -/
class Storable (α : Type) where
  content : α → Content
  ofContent? : Content → Option α
  /-- A content as it is put into a column of this type. -/
  entered : Content → Content
  convert : Content → Except CellFault α

instance : Storable Int where
  content := .integer
  ofContent? := fun content =>
    match content with
    | .integer value => some value
    | _ => none
  entered := Content.inNumberColumn
  convert := fun content =>
    match content with
    | .integer value => .ok value
    | other => .error (.wrongType other.typeName)

instance : Storable String where
  content := .text
  ofContent? := fun content =>
    match content with
    | .text value => some value
    | _ => none
  entered := Content.inTextColumn
  convert := fun content =>
    match content with
    | .text value => .ok value
    | other => .error (.wrongType other.typeName)

instance {kind : IdKind} : Storable (Id kind) where
  content := fun id => .text id.bare
  ofContent? := fun content =>
    match content with
    | .text value =>
        match Uuid.parse value with
        | .ok uuid => if uuid.text = value then some ⟨uuid⟩ else none
        | .error _ => none
    | _ => none
  entered := Content.inTextColumn
  convert := fun content =>
    match content with
    | .text value =>
        match Uuid.parse value with
        | .ok uuid => .ok ⟨uuid⟩
        | .error fault => .error (.unreadable fault.message)
    | other => .error (.wrongType other.typeName)

instance : Storable RecordKind where
  content := fun kind => .text kind.table
  ofContent? := fun content =>
    match content with
    | .text value => RecordKind.ofTable? value
    | _ => none
  entered := Content.inTextColumn
  convert := fun content =>
    match content with
    | .text value =>
        match RecordKind.parse? value with
        | some kind => .ok kind
        | none => .error (.unreadable ("unknown audit table: " ++ value))
    | other => .error (.wrongType other.typeName)

/-- A cell of a column of a type. -/
inductive Cell (α : Type) where
  | holds (value : α)
  | foreign (content : Content)
  deriving DecidableEq, Repr

namespace Cell

variable {α : Type}

/-- What the store holds in a cell. -/
def content [Storable α] : Cell α → Content
  | .holds value => Storable.content value
  | .foreign content => content

/-- The cell that holds a content after it was put into the column. -/
def ofContent [Storable α] (content : Content) : Cell α :=
  let held := Storable.entered α content
  match Storable.ofContent? held with
  | some value => .holds value
  | none => .foreign held

/-- Reads a cell as the column of a given place and name in a query. -/
def read [Storable α] (cell : Cell α) (index : Nat) (column : String) : Except Fault α :=
  match cell with
  | .holds value => .ok value
  | .foreign content =>
      match Storable.convert content with
      | .ok value => .ok value
      | .error (.wrongType type) => .error (.store (.wrongType type index column))
      | .error (.unreadable reason) => .error (.store (.unreadable index reason))

/-- Whether two cells hold the same; cells that hold nothing differ from every cell. -/
def clashes [DecidableEq α] (left right : Cell α) : Bool :=
  left = right ∧ left ≠ .foreign .nothing

@[simp]
theorem read_holds [Storable α] (value : α) (index : Nat) (column : String) :
    (Cell.holds value).read index column = .ok value := rfl

@[simp]
theorem clashes_holds [DecidableEq α] (left right : α) :
    (Cell.holds left).clashes (.holds right) = decide (left = right) := by
  simp [clashes]

end Cell

end SealedDirectory
