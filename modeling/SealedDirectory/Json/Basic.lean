/-!
# Documents

A document is what a JSON text denotes.  Objects keep their fields in order, so
that a record can be written with its fields where a reader expects them; a
document that was read from a text has its fields in the order of their names,
each name once.

A number is either a whole number or a double-precision number given by its
sixty-four bits, so that equality of documents is equality of what is stored.
-/

namespace SealedDirectory

inductive Number where
  | integer (value : Int)
  | float (bits : UInt64)
  deriving DecidableEq, Repr

inductive Json where
  | null
  | bool (value : Bool)
  | number (value : Number)
  | text (value : String)
  | list (items : List Json)
  | object (fields : List (String × Json))
  deriving Repr

namespace Json

def integer (value : Int) : Json :=
  .number (.integer value)

instance : Inhabited Json := ⟨.null⟩

mutual

def equal : Json → Json → Bool
  | .null, .null => true
  | .bool left, .bool right => left == right
  | .number left, .number right => left == right
  | .text left, .text right => left == right
  | .list left, .list right => equalItems left right
  | .object left, .object right => equalFields left right
  | _, _ => false

/-- Whether two lists of documents are equal. -/
def equalItems : List Json → List Json → Bool
  | [], [] => true
  | left :: lefts, right :: rights => equal left right && equalItems lefts rights
  | _, _ => false

/-- Whether two lists of named documents are equal. -/
def equalFields : List (String × Json) → List (String × Json) → Bool
  | [], [] => true
  | (name, left) :: lefts, (other, right) :: rights =>
      name == other && equal left right && equalFields lefts rights
  | _, _ => false

end

mutual

theorem equal_iff : (left right : Json) → (equal left right = true ↔ left = right)
  | .null, right => by cases right <;> simp [equal]
  | .bool _, right => by cases right <;> simp [equal]
  | .number _, right => by cases right <;> simp [equal]
  | .text _, right => by cases right <;> simp [equal]
  | .list items, right => by
      cases right with
      | list others => simpa [equal] using equalItems_iff items others
      | _ => simp [equal]
  | .object fields, right => by
      cases right with
      | object others => simpa [equal] using equalFields_iff fields others
      | _ => simp [equal]

theorem equalItems_iff :
    (left right : List Json) → (equalItems left right = true ↔ left = right)
  | [], right => by cases right <;> simp [equalItems]
  | left :: lefts, right => by
      cases right with
      | nil => simp [equalItems]
      | cons right rights =>
          simp [equalItems, equal_iff left right, equalItems_iff lefts rights]

theorem equalFields_iff :
    (left right : List (String × Json)) → (equalFields left right = true ↔ left = right)
  | [], right => by cases right <;> simp [equalFields]
  | (name, left) :: lefts, right => by
      cases right with
      | nil => simp [equalFields]
      | cons right rights =>
          obtain ⟨other, right⟩ := right
          simp [equalFields, equal_iff left right, equalFields_iff lefts rights]

end

instance : DecidableEq Json := fun left right =>
  decidable_of_iff _ (equal_iff left right)

/-- The field of a name, the last one if the name repeats. -/
def field? (name : String) (fields : List (String × Json)) : Option Json :=
  (fields.findRev? (fun entry => entry.1 == name)).map (·.2)

/-- Puts a field at its place in the order of names; a field of the same name is replaced. -/
def insertField (name : String) (value : Json) :
    List (String × Json) → List (String × Json)
  | [] => [(name, value)]
  | (other, held) :: rest =>
      if name < other then (name, value) :: (other, held) :: rest
      else if name = other then (name, value) :: rest
      else (other, held) :: insertField name value rest

/-- Fields in the order of their names; of a repeated name the last one counts. -/
def sortFields (fields : List (String × Json)) : List (String × Json) :=
  fields.foldl (fun sorted entry => insertField entry.1 entry.2 sorted) []

mutual

/-- The same document with the fields of every object in the order of their names. -/
def sorted : Json → Json
  | .list items => .list (sortedItems items)
  | .object fields => .object (sortFields (sortedFields fields))
  | other => other

def sortedItems : List Json → List Json
  | [] => []
  | item :: rest => sorted item :: sortedItems rest

def sortedFields : List (String × Json) → List (String × Json)
  | [] => []
  | (name, value) :: rest => (name, sorted value) :: sortedFields rest

end

end Json

end SealedDirectory
