import SealedDirectory.Json.Codec

/-!
# Records

A record is written as an object with its fields in their declared order.  It is
read from an object with the fields in any order, where fields of other names are
passed over, or from the list of its values.  A field that occurs twice is refused
before its second value is read, and missing fields are looked for at the end.
-/

namespace SealedDirectory.Json

structure Field (α : Type) where
  name : String
  codec : Codec α
  /-- Its value in a record that leaves it out. -/
  fallback : Option α := none

/-- The fields of a record in order. -/
inductive Fields : List Type → Type 1 where
  | nil : Fields []
  | cons {α : Type} {types : List Type} (field : Field α) (rest : Fields types) :
      Fields (α :: types)

/-- The values of the fields of a record. -/
def Row : List Type → Type
  | [] => Unit
  | α :: types => α × Row types

/-- The values that have been read so far. -/
def Slots : List Type → Type
  | [] => Unit
  | α :: types => Option α × Slots types

namespace Fields

variable {types : List Type}

def unread : {types : List Type} → Fields types → Slots types
  | _, .nil => ()
  | _, .cons _ rest => (none, rest.unread)

/-- The named documents of a row of values. -/
def write : {types : List Type} → Fields types → Row types → List (String × Json)
  | _, .nil, _ => []
  | _, .cons field rest, (value, values) =>
      (field.name, field.codec.write value) :: rest.write values

/-- Reads what follows the name of a field into its slot. -/
def readNamed (depth : Nat) (name : String) :
    {types : List Type} → Fields types → Slots types → Reader (Slots types)
  | _, .nil, slots => do
      Reader.colon
      Reader.ignored (← Reader.fuel)
      return slots
  | _, .cons field rest, (slot, slots) => do
      if name = field.name then
        if slot.isSome then Reader.refuse (.repeatedField name)
        Reader.colon
        return (some (← field.codec.read depth), slots)
      else return (slot, ← rest.readNamed depth name slots)

/-- Takes the document of a field into its slot. -/
def takeNamed (name : String) (document : Json) :
    {types : List Type} → Fields types → Slots types → Except Cause (Slots types)
  | _, .nil, slots => .ok slots
  | _, .cons field rest, (slot, slots) => do
      if name = field.name then
        if slot.isSome then throw (.repeatedField name)
        return (some (← field.codec.take document), slots)
      else return (slot, ← rest.takeNamed name document slots)

/-- Fills the slots that are still empty. -/
def complete : {types : List Type} → Fields types → Slots types → Except Cause (Row types)
  | _, .nil, _ => .ok ()
  | _, .cons field rest, (slot, slots) => do
      match slot <|> field.fallback <|> field.codec.absent with
      | some value => return (value, ← rest.complete slots)
      | none => throw (.missingField field.name)

/-- Reads the values of a record from a list, the given number of them being read. -/
def readItems (depth : Nat) (expected : String) :
    (index : Nat) → {types : List Type} → Fields types → Reader (Row types)
  | _, _, .nil => return ()
  | index, _, .cons field rest => do
      if ← Reader.hasItem (index == 0) then
        let value ← field.codec.read depth
        return (value, ← rest.readItems depth expected (index + 1))
      else
        match field.fallback with
        | some value => return (value, ← rest.readItems depth expected index)
        | none => Reader.refuse (.wrongLength index expected)

/-- Takes the values of a record from documents in order. -/
def takeItems (expected : String) (total : Nat) :
    (index : Nat) → {types : List Type} → Fields types → List Json → Except Cause (Row types)
  | _, _, .nil, [] => .ok ()
  | _, _, .nil, _ :: _ => .error (.wrongLength total "fewer elements in array")
  | index, _, .cons field rest, document :: documents => do
      let value ← field.codec.take document
      return (value, ← rest.takeItems expected total (index + 1) documents)
  | index, _, .cons field rest, [] =>
      match field.fallback with
      | some value => do return (value, ← rest.takeItems expected total (index + 1) [])
      | none => .error (.wrongLength index expected)

def count : {types : List Type} → Fields types → Nat
  | _, .nil => 0
  | _, .cons _ rest => rest.count + 1

end Fields

/-- The codec of a record type: its name, its fields, and the passage from rows and back. -/
def Codec.record {α : Type} {types : List Type} (typeName : String) (fields : Fields types)
    (ofRow : Row types → α) (toRow : α → Row types) : Codec α where
  write := fun value => .object (fields.write (toRow value))
  read := fun depth => do
    let expected := "struct " ++ typeName
    let lengthy :=
      expected ++ " with " ++ toString fields.count ++
        (if fields.count = 1 then " element" else " elements")
    let char ← Reader.peekToken .endOfValue
    if char = '[' then
      Reader.enter depth fun depth =>
        Reader.closing (do return ofRow (← fields.readItems depth lengthy 0)) Reader.closeList
    else if char = '{' then
      Reader.enter depth fun depth =>
        Reader.closing
          (do
            let step (slots : Slots types) : Reader (Slots types) := do
              fields.readNamed depth (← Reader.name) slots
            match fields.complete (← Reader.fields step true (← Reader.fuel) fields.unread) with
            | .ok row => return ofRow row
            | .error cause => Reader.refuse cause)
          Reader.closeObject
    else Reader.wrongKind expected
  take := fun document =>
    let expected := "struct " ++ typeName
    let lengthy :=
      expected ++ " with " ++ toString fields.count ++
        (if fields.count = 1 then " element" else " elements")
    match document with
    | .list items => ofRow <$> fields.takeItems lengthy items.length 0 items
    | .object entries => do
        let slots ← entries.foldlM
          (fun slots (name, content) => fields.takeNamed name content slots) fields.unread
        return ofRow (← fields.complete slots)
    | other => .error (.wrongKind other.found expected)

end SealedDirectory.Json
