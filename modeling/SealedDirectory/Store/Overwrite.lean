import SealedDirectory.Store.Tables

/-!
# Edits past the directory

Somebody with access to the store can write into any column, delete rows, and copy
one private column over another.  The store applies its own rules to such edits and
no others: a column that must hold something, the conditions on codes and tables, and
uniqueness.  These edits are what the readers of the store are guarded against.
-/

namespace SealedDirectory

/-- A column as an editor sees it. -/
structure Column (ρ : Type) where
  name : String
  get : ρ → Content
  put : Content → ρ → Except StoreFault ρ
  isNumber : Bool := false

namespace Column

variable {ρ α : Type}

/-- A column of cells that must hold something. -/
def cell [Storable α] (table name : String) (isNumber : Bool) (get : ρ → Cell α)
    (set : ρ → Cell α → ρ) : Column ρ :=
  { name
    get := fun row => (get row).content
    put := fun content row =>
      if content = .nothing then .error (.missing table name)
      else .ok (set row (Cell.ofContent content))
    isNumber }

/-- A column of cells that may hold nothing. -/
def optionalCell [Storable α] (name : String) (get : ρ → Cell α) (set : ρ → Cell α → ρ) :
    Column ρ :=
  { name
    get := fun row => (get row).content
    put := fun content row => .ok (set row (Cell.ofContent content)) }

def text (table name : String) (get : ρ → String) (set : ρ → String → ρ) : Column ρ :=
  { name
    get := fun row => .text (get row)
    put := fun content row =>
      match content.inTextColumn with
      | .text value => .ok (set row value)
      | _ => .error (.missing table name) }

/-- A column of codes under a condition. -/
def code (table name : String) (get : ρ → Int) (set : ρ → Int → Option ρ) : Column ρ :=
  { name
    get := fun row => .integer (get row)
    put := fun content row =>
      match content.inNumberColumn with
      | .nothing => .error (.missing table name)
      | .integer value => (set row value).elim (.error (.check (name ++ " IN (1, 2, 3)"))) .ok
      | _ => .error (.check (name ++ " IN (1, 2, 3)"))
    isNumber := true }

end Column

def OrgRow.columns : List (Column OrgRow) :=
  [.optionalCell "id" OrgRow.id fun row id => { row with id },
   .text "orgs" "name" OrgRow.name fun row name => { row with name },
   .cell "orgs" "owner" false OrgRow.owner fun row owner => { row with owner },
   .cell "orgs" "ctime" true OrgRow.created fun row created => { row with created },
   .cell "orgs" "mtime" true OrgRow.changed fun row changed => { row with changed },
   .cell "orgs" "insert_order" true OrgRow.order fun row order => { row with order },
   .code "orgs" "role" (fun row => row.role.code) fun row code =>
     (Role.ofCode? code).map fun role => { row with role },
   .cell "orgs" "schema_version" true OrgRow.layout fun row layout => { row with layout },
   .cell "orgs" "signature" false OrgRow.signature fun row signature =>
     { row with signature },
   .code "orgs" "status" (fun row => row.status.code) fun row code =>
     (Status.ofCode? code).map fun status => { row with status }]

def UserRow.columns : List (Column UserRow) :=
  [.optionalCell "id" UserRow.id fun row id => { row with id },
   .text "users" "display_name" UserRow.displayName fun row displayName =>
     { row with displayName },
   .text "users" "display_name_digest" UserRow.displayNameDigest fun row displayNameDigest =>
     { row with displayNameDigest },
   .text "users" "public_key" UserRow.publicKey fun row publicKey => { row with publicKey },
   .text "users" "public_key_digest" UserRow.publicKeyDigest fun row publicKeyDigest =>
     { row with publicKeyDigest },
   .text "users" "email" UserRow.email fun row email => { row with email },
   .text "users" "email_digest" UserRow.emailDigest fun row emailDigest =>
     { row with emailDigest },
   .cell "users" "key_version" false UserRow.keyVersion fun row keyVersion =>
     { row with keyVersion },
   .cell "users" "org" false UserRow.org fun row org => { row with org },
   .text "users" "password" UserRow.password fun row password => { row with password },
   .cell "users" "ctime" true UserRow.created fun row created => { row with created },
   .cell "users" "mtime" true UserRow.changed fun row changed => { row with changed },
   .cell "users" "insert_order" true UserRow.order fun row order => { row with order },
   .code "users" "role" (fun row => row.role.code) fun row code =>
     (Role.ofCode? code).map fun role => { row with role },
   .cell "users" "schema_version" true UserRow.layout fun row layout => { row with layout },
   .cell "users" "signature" false UserRow.signature fun row signature =>
     { row with signature },
   .code "users" "status" (fun row => row.status.code) fun row code =>
     (Status.ofCode? code).map fun status => { row with status }]

/-- The column of the kind of an entry, under its condition. -/
def EntryRow.kindColumn : Column EntryRow :=
  { name := "audit_table"
    get := fun row => .text row.kind.table
    put := fun content row =>
      match content.inTextColumn with
      | .nothing => .error (.missing "audit" "audit_table")
      | .text value =>
          match RecordKind.ofTable? value with
          | some kind => .ok { row with kind }
          | none => .error (.check "audit_table IN ('orgs', 'users')")
      | _ => .error (.check "audit_table IN ('orgs', 'users')") }

def EntryRow.columns : List (Column EntryRow) :=
  [EntryRow.kindColumn,
   .text "audit" "audit_id" EntryRow.entity fun row entity => { row with entity },
   .text "audit" "audit_column" EntryRow.column fun row column => { row with column },
   .cell "audit" "old_mtime" true EntryRow.oldTime fun row oldTime => { row with oldTime },
   .cell "audit" "new_mtime" true EntryRow.newTime fun row newTime => { row with newTime },
   .cell "audit" "old_signature" false EntryRow.oldSignature fun row oldSignature =>
     { row with oldSignature },
   .cell "audit" "new_signature" false EntryRow.newSignature fun row newSignature =>
     { row with newSignature },
   .text "audit" "details" EntryRow.details fun row details => { row with details },
   .cell "audit" "insert_order" true EntryRow.order fun row order => { row with order },
   .cell "audit" "ctime" true EntryRow.time fun row time => { row with time }]

def SignatureRow.columns : List (Column SignatureRow) :=
  [.optionalCell "signature" SignatureRow.signature fun row signature =>
     { row with signature },
   .cell "signatures" "source_table" false SignatureRow.source fun row source =>
     { row with source },
   .cell "signatures" "ctime" true SignatureRow.time fun row time => { row with time }]

def MarkRow.columns : List (Column MarkRow) :=
  [.optionalCell "name" MarkRow.name fun row name => { row with name },
   .cell "sequences" "value" true MarkRow.value fun row value => { row with value }]

def NoteRow.columns : List (Column NoteRow) :=
  [.optionalCell "key" NoteRow.key fun row key => { row with key },
   .text "meta" "value" NoteRow.value fun row value => { row with value }]

/-- A table as an editor sees it. -/
structure TableView (ρ : Type) where
  columns : List (Column ρ)
  uniques : List (Unique ρ)
  rows : Tables → List ρ
  restore : Tables → List ρ → Tables

namespace TableView

def orgs : TableView OrgRow :=
  { columns := OrgRow.columns, uniques := OrgRow.uniques, rows := Tables.orgs
    restore := fun tables orgs => { tables with orgs } }

def users : TableView UserRow :=
  { columns := UserRow.columns, uniques := UserRow.uniques, rows := Tables.users
    restore := fun tables users => { tables with users } }

def trail : TableView EntryRow :=
  { columns := EntryRow.columns, uniques := EntryRow.uniques, rows := Tables.trail
    restore := fun tables trail => { tables with trail } }

def registry : TableView SignatureRow :=
  { columns := SignatureRow.columns, uniques := SignatureRow.uniques, rows := Tables.registry
    restore := fun tables registry => { tables with registry } }

def marks : TableView MarkRow :=
  { columns := MarkRow.columns, uniques := MarkRow.uniques, rows := Tables.marks
    restore := fun tables marks => { tables with marks } }

def notes : TableView NoteRow :=
  { columns := NoteRow.columns, uniques := NoteRow.uniques, rows := Tables.notes
    restore := fun tables notes => { tables with notes } }

variable {ρ : Type}

/-- The column of a name in either case. -/
def column? (view : TableView ρ) (name : String) : Option (Column ρ) :=
  view.columns.find? fun column => column.name = Text.lowercase name

/-- The column that is written, which must exist. -/
def target (view : TableView ρ) (name : String) : Except Fault (Column ρ) :=
  (view.column? name).elim (.error (.store (.noColumn name))) .ok

/-- The column that a statement reads between two parts of its text, which must exist. -/
def source (view : TableView ρ) (before name after : String) : Except Fault (Column ρ) :=
  match view.column? name with
  | some column => .ok column
  | none =>
      .error (.store (.noColumnIn name (before ++ name ++ after) before.utf8ByteSize))

/-- Whether a column holds a text, which in a column of numbers stands for its number. -/
def holds (key : Column ρ) (value : String) (row : ρ) : Bool :=
  let wanted := Content.text value
  key.get row = (if key.isNumber then wanted.inNumberColumn else wanted)

/-- Changes every row that holds a text in a column. -/
def change (view : TableView ρ) (key : Column ρ) (value : String)
    (edit : ρ → Except StoreFault ρ) (tables : Tables) : Except Fault (Tables × Nat) := do
  let (rows, count) ← updateRows view.uniques (holds key value)
    (fun row => (edit row).mapError Fault.store) [] (view.rows tables)
  return (view.restore tables rows, count)

/-- Deletes every row that holds a text in a column. -/
def erase (view : TableView ρ) (key : Column ρ) (value : String) (tables : Tables) :
    Tables × Nat :=
  let kept := (view.rows tables).filter fun row => !holds key value row
  (view.restore tables kept, (view.rows tables).length - kept.length)

end TableView

namespace Tables

/-- Does something with the table of a name in either case, which must exist. -/
def withView {β : Type} (name : String) (action : {ρ : Type} → TableView ρ → Except Fault β) :
    Except Fault β :=
  match Text.lowercase name with
  | "orgs" => action .orgs
  | "users" => action .users
  | "audit" => action .trail
  | "signatures" => action .registry
  | "sequences" => action .marks
  | "meta" => action .notes
  | _ => .error (.store (.noTable name))

/-- Writes a content into a column of every row of a table that holds a text in another column. -/
def overwrite (tables : Tables) (table column : String) (content : Content)
    (key value : String) : Except Fault (Tables × Nat) :=
  withView table fun view => do
    let target ← view.target column
    let key ← view.source ("UPDATE " ++ table ++ " SET " ++ column ++ " = ? WHERE ") key " = ?"
    view.change key value (target.put content) tables

/-- Deletes every row of a table that holds a text in a column. -/
def delete (tables : Tables) (table key value : String) : Except Fault (Tables × Nat) :=
  withView table fun view => do
    let key ← view.source ("DELETE FROM " ++ table ++ " WHERE ") key " = ?"
    return view.erase key value tables

/-- Copies a column and its digest over another column and its digest in the row of a user. -/
def copyColumn (tables : Tables) (user target source : String) :
    Except Fault (Tables × Nat) := do
  let view := TableView.users
  let start := "UPDATE users SET " ++ target ++ " = "
  let between := ", " ++ target ++ "_digest = "
  let finish := " WHERE id = ?"
  let origin ← view.source start source (between ++ source ++ "_digest" ++ finish)
  let into ← view.target target
  let originDigest ← view.source (start ++ source ++ between) (source ++ "_digest") finish
  let intoDigest ← view.target (target ++ "_digest")
  let key ← view.target "id"
  view.change key user
    (fun row => do intoDigest.put (originDigest.get row) (← into.put (origin.get row) row))
    tables

end Tables

end SealedDirectory
