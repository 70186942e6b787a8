import SealedDirectory.Store.Tables

/-!
# Sequences

Organizations and users draw their places from one sequence, entries of the trail
from another.  The next number is one more than the greatest number known to be used:
in the rows, in the stored marks, and in the memory of the running process.

The memory of the process is never rolled back.  After a transaction that failed, it
is written into the stored marks, so that a number which was drawn and lost is not
drawn again by a process that opens the store later.
-/

namespace SealedDirectory

inductive Sequence where
  | entity
  | trail
  deriving DecidableEq, Repr

/-- The name of a sequence in the stored marks. -/
def Sequence.name : Sequence → String
  | .entity => "entity"
  | .trail => "audit"

/-- The query for the greatest used number, by which the store names its answer. -/
def Sequence.query : Sequence → String
  | .entity =>
      "MAX(\n                (SELECT COALESCE(MAX(insert_order), 0) FROM orgs),\n" ++
      "                (SELECT COALESCE(MAX(insert_order), 0) FROM users),\n" ++
      "                (SELECT COALESCE(MAX(value), 0) FROM sequences WHERE name = ?)\n" ++
      "            )"
  | .trail =>
      "MAX(\n                (SELECT COALESCE(MAX(insert_order), 0) FROM audit),\n" ++
      "                (SELECT COALESCE(MAX(value), 0) FROM sequences WHERE name = ?)\n" ++
      "            )"

namespace Tables

/-- The cells of a table row set that bear on a sequence. -/
def usedNumbers (tables : Tables) (sequence : Sequence) : List (List (Cell Int)) :=
  let marked :=
    (tables.marks.filter fun mark => mark.name = .holds sequence.name).map MarkRow.value
  match sequence with
  | .entity => [tables.orgs.map OrgRow.order, tables.users.map UserRow.order, marked]
  | .trail => [tables.trail.map EntryRow.order, marked]

/-- The greater of two cells, and the first of them if neither is greater. -/
def higher (left right : Cell Int) : Cell Int :=
  if right.content.atMost left.content then left else right

/-- The greatest of a list of cells, zero for none. -/
def greatest : List (Cell Int) → Cell Int
  | [] => .holds 0
  | cell :: rest => rest.foldl higher cell

/--
The greatest number that the store knows to be used.  A double or a text that exceeds
all of them is refused.
-/
def highest (tables : Tables) (sequence : Sequence) : Except Fault Int :=
  (greatest ((tables.usedNumbers sequence).map greatest)).read 0 sequence.query

/-- Writes a mark unless a higher one is stored. -/
def raiseMark (tables : Tables) (sequence : Sequence) (value : Int) : Tables :=
  let raised (mark : MarkRow) : MarkRow :=
    { mark with value := higher mark.value (.holds value) }
  if tables.marks.any fun mark => mark.name = .holds sequence.name then
    { tables with
      marks := tables.marks.map fun mark =>
        if mark.name = .holds sequence.name then raised mark else mark }
  else
    { tables with marks := tables.marks ++ [⟨.holds sequence.name, .holds value⟩] }

end Tables

/-- What a running process remembers of the sequences. -/
structure Marks where
  /-- The last place that was drawn for an organization or a user. -/
  entity : Int
  /-- The last place that was drawn in the trail. -/
  trail : Int
  /-- Whether numbers were drawn that the store may not know of. -/
  unsaved : Bool
  deriving DecidableEq, Repr

namespace Marks

/-- The memory of a process that has drawn nothing. -/
def fresh : Marks :=
  { entity := 0, trail := 0, unsaved := false }

/-- The last number that was drawn from a sequence. -/
def last (marks : Marks) : Sequence → Int
  | .entity => marks.entity
  | .trail => marks.trail

/--
Draws the next number after the remembered and the stored ones.  Numbers have no bound here,
while a store keeps 64 bits of them: no counter is taken to reach 9223372036854775807, the
greatest number that a store can hold, after which there would be no next one to draw.
-/
def draw (marks : Marks) (sequence : Sequence) (stored : Int) : Int × Marks :=
  let number := max (marks.last sequence) stored + 1
  (number,
    match sequence with
    | .entity => { marks with entity := number, unsaved := true }
    | .trail => { marks with trail := number, unsaved := true })

/-- After a commit the rows themselves say which numbers are used. -/
def committed (marks : Marks) : Marks :=
  { marks with unsaved := false }

/-- Writes both marks if something was drawn that may have been lost. -/
def save (marks : Marks) (tables : Tables) : Tables × Marks :=
  if marks.unsaved then
    ((tables.raiseMark .entity marks.entity).raiseMark .trail marks.trail, marks.committed)
  else (tables, marks)

theorem stored_lt_draw (marks : Marks) (sequence : Sequence) (stored : Int) :
    stored < (marks.draw sequence stored).1 := by
  simp only [draw]
  omega

theorem last_lt_draw (marks : Marks) (sequence : Sequence) (stored : Int) :
    marks.last sequence < (marks.draw sequence stored).1 := by
  simp only [draw]
  omega

end Marks

end SealedDirectory
