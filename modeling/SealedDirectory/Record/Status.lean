import SealedDirectory.Json.Record
import SealedDirectory.Text.Blank

/-!
# Status, role and kind of a record

Organizations and users share a lifecycle and a set of roles.  Both are stored as
small numbers; in text they are given by name, in either case and with blanks
around, or by number.
-/

namespace SealedDirectory

/-- Where a record is in its lifecycle. -/
inductive Status where
  | unconfirmed
  | active
  | inactive
  deriving DecidableEq, Repr

inductive Role where
  | normal
  | admin
  | test
  deriving DecidableEq, Repr, Inhabited

inductive RecordKind where
  | org
  | user
  deriving DecidableEq, Repr

namespace Status

def code : Status → Int
  | .unconfirmed => 1
  | .active => 2
  | .inactive => 3

def name : Status → String
  | .unconfirmed => "Unconfirmed"
  | .active => "Active"
  | .inactive => "Inactive"

def ofCode? (code : Int) : Option Status :=
  if code = 1 then some .unconfirmed
  else if code = 2 then some .active
  else if code = 3 then some .inactive
  else none

def unknownCode (code : Int) : String :=
  s!"Unknown status code: {code}"

def parse? (text : String) : Option Status :=
  let word := Text.lowercase (Text.trim text)
  if word = "unconfirmed" ∨ word = "1" then some .unconfirmed
  else if word = "active" ∨ word = "2" then some .active
  else if word = "inactive" ∨ word = "3" then some .inactive
  else none

/-- A status is written as its number. -/
def codec : Json.Codec Status :=
  Json.Codec.int64.guarded code fun number =>
    match ofCode? number with
    | some status => .ok status
    | none => .error ("Validation error: " ++ unknownCode number)

@[simp]
theorem ofCode?_code (status : Status) : ofCode? status.code = some status := by
  cases status <;> rfl

end Status

namespace Role

def code : Role → Int
  | .normal => 1
  | .admin => 2
  | .test => 3

def name : Role → String
  | .normal => "Normal"
  | .admin => "Admin"
  | .test => "Test"

def ofCode? (code : Int) : Option Role :=
  if code = 1 then some .normal
  else if code = 2 then some .admin
  else if code = 3 then some .test
  else none

def unknownCode (code : Int) : String :=
  s!"Unknown role code: {code}"

def parse? (text : String) : Option Role :=
  let word := Text.lowercase (Text.trim text)
  if word = "normal" ∨ word = "1" then some .normal
  else if word = "admin" ∨ word = "2" then some .admin
  else if word = "test" ∨ word = "3" then some .test
  else none

/-- A role is written as its number. -/
def codec : Json.Codec Role :=
  Json.Codec.int64.guarded code fun number =>
    match ofCode? number with
    | some role => .ok role
    | none => .error ("Validation error: " ++ unknownCode number)

@[simp]
theorem ofCode?_code (role : Role) : ofCode? role.code = some role := by
  cases role <;> rfl

end Role

namespace RecordKind

/-- The name of the table that holds records of a kind. -/
def table : RecordKind → String
  | .org => "orgs"
  | .user => "users"

/-- The word for one record of a kind. -/
def title : RecordKind → String
  | .org => "Org"
  | .user => "User"

/-- The kind whose table has exactly this name. -/
def ofTable? (name : String) : Option RecordKind :=
  if name = "orgs" then some .org
  else if name = "users" then some .user
  else none

/-- Reads the name of a table, singular or plural. -/
def parse? (text : String) : Option RecordKind :=
  let word := Text.lowercase (Text.trim text)
  if word = "orgs" ∨ word = "org" then some .org
  else if word = "users" ∨ word = "user" then some .user
  else none

/-- A kind is written as the name of its table. -/
def codec : Json.Codec RecordKind :=
  Json.Codec.oneOf "`orgs` or `users`" table ofTable?

@[simp]
theorem ofTable?_table (kind : RecordKind) : ofTable? kind.table = some kind := by
  cases kind <;> rfl

end RecordKind

end SealedDirectory
