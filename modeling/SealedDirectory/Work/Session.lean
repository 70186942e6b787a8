import SealedDirectory.Store.Marks
import SealedDirectory.Work.Source

/-!
# Sessions and transactions

A session is a store as one process sees it: the tables, what the process remembers
of the sequences, and the source it draws from.  An operation runs in a session and
either gives a value or fails; what it has drawn is drawn in both cases.

A transaction that fails leaves the tables as it found them, except that the marks of
the sequences are raised to what it has drawn.
-/

namespace SealedDirectory

/-- A store as one process sees it. -/
structure Session where
  tables : Tables
  marks : Marks
  source : Source
  drawn : Drawn
  /-- The numbers that were handed out, the latest first; no operation looks at them. -/
  handed : List (Sequence × Int) := []

namespace Session

def opened (tables : Tables) (source : Source) : Session :=
  { tables := tables.founded, marks := .fresh, source, drawn := {} }

/-- The process ends, and another one opens the store. -/
def reopened (session : Session) : Session :=
  { session with tables := session.tables.founded, marks := .fresh }

end Session

abbrev Work (α : Type) := ExceptT Fault (StateM Session) α

namespace Work

variable {α β : Type}

def ask (question : Tables → Except Fault α) : Work α := do
  match question (← get).tables with
  | .ok answer => return answer
  | .error fault => throw fault

/-- Runs a statement that changes the tables and answers; when it fails nothing changes. -/
def answer (statement : Tables → Except Fault (Tables × α)) : Work α := do
  match statement (← get).tables with
  | .ok (tables, value) =>
      modify fun session => { session with tables }
      return value
  | .error fault => throw fault

/-- Runs a statement that changes the tables. -/
def execute (statement : Tables → Except Fault Tables) : Work Unit :=
  answer fun tables => (statement tables).map fun changed => (changed, ())

/-- A check whose broken rule becomes a fault. -/
def require {ρ : Type} (check : Except ρ Unit) (fault : ρ → Fault) : Work Unit :=
  match check with
  | .ok () => return ()
  | .error rule => throw (fault rule)

def moment : Work Calendar.Moment := do
  let session ← get
  set { session with drawn := { session.drawn with clock := session.drawn.clock + 1 } }
  return session.source.clock session.drawn.clock

def now : Work Int := do
  return (← moment).seconds

def freshId (kind : IdKind) : Work (Id kind) := do
  let session ← get
  set { session with drawn := { session.drawn with uuid := session.drawn.uuid + 1 } }
  return ⟨session.source.uuid session.drawn.uuid⟩

def freshNonce : Work Nonce := do
  let session ← get
  set { session with drawn := { session.drawn with nonce := session.drawn.nonce + 1 } }
  return session.source.nonce session.drawn.nonce

def freshSalt : Work Bytes := do
  let session ← get
  set { session with drawn := { session.drawn with salt := session.drawn.salt + 1 } }
  return session.source.salt session.drawn.salt

def freshKey : Work Key := do
  let session ← get
  set { session with drawn := { session.drawn with key := session.drawn.key + 1 } }
  return session.source.key session.drawn.key

/-- Draws the next number of a sequence. -/
def nextNumber (sequence : Sequence) : Work Int := do
  let stored ← ask fun tables => tables.highest sequence
  let session ← get
  let (number, marks) := session.marks.draw sequence stored
  set { session with marks, handed := (sequence, number) :: session.handed }
  return number

def commit (session : Session) : Session :=
  { session with marks := session.marks.committed }

/-- Ends a transaction that failed and had found the given tables. -/
def rollback (before : Tables) (session : Session) : Session :=
  let (tables, marks) := session.marks.save before
  { session with tables, marks }

/-- Runs something as one transaction, whatever the kind of its faults. -/
def transaction {ε : Type} (work : ExceptT ε (StateM Session) α) :
    ExceptT ε (StateM Session) α :=
  fun session =>
    match work session with
    | (.ok value, after) => (.ok value, commit after)
    | (.error fault, after) => (.error fault, rollback session.tables after)

/-- What an operation gives in a session, and the session after it. -/
def runIn (work : Work α) (session : Session) : Except Fault α × Session :=
  work session

end Work

end SealedDirectory
