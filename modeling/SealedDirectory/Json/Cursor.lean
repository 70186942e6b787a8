import SealedDirectory.Json.Cause

/-!
# Reading with a cursor

A reader runs over the characters of a text and either gives a value or fails.  It
keeps count of the bytes that it has passed, since faults are reported by byte, and
the cursor outlives a failure: a value that breaks a rule of its type is reported
where the reader of the enclosing document stands after it has closed it.
-/

namespace SealedDirectory.Json

/-- The rest of a text and the number of bytes before it. -/
structure Cursor where
  rest : List Char
  passed : Nat

/-- A failure, at a byte of the text or at no particular one. -/
inductive Failure where
  /-- The cause was met after so many bytes. -/
  | at (cause : Cause) (bytes : Nat)
  /-- The cause lies in a value, whose place the enclosing reader knows. -/
  | loose (cause : Cause)
  deriving DecidableEq, Repr

abbrev Reader (α : Type) := ExceptT Failure (StateM Cursor) α

namespace Reader

def peek? : Reader (Option Char) := do
  return (← get).rest.head?

/-- Passes one character, if there is one. -/
def skip : Reader Unit :=
  modify fun cursor =>
    match cursor.rest with
    | [] => cursor
    | char :: rest => ⟨rest, cursor.passed + char.utf8Size⟩

def next? : Reader (Option Char) := do
  let head ← peek?
  skip
  return head

/-- The characters at the head that satisfy a test, passed. -/
def takeWhile (test : Char → Bool) : Reader (List Char) := do
  let cursor ← get
  let taken := cursor.rest.takeWhile test
  set (Cursor.mk (cursor.rest.dropWhile test)
    (taken.foldl (fun passed char => passed + char.utf8Size) cursor.passed))
  return taken

/-- Fails for a reason that lies in the characters just read. -/
def fail {α : Type} (cause : Cause) : Reader α := do
  throw (.at cause (← get).passed)

/-- Fails for a reason that lies in the next character. -/
def failAhead {α : Type} (cause : Cause) : Reader α := do
  let cursor ← get
  throw (.at cause (if cursor.rest.isEmpty then cursor.passed else cursor.passed + 1))

/-- Fails for a reason that lies in a value. -/
def refuse {α : Type} (cause : Cause) : Reader α :=
  throw (.loose cause)

/-- A failure at no particular byte becomes one at the byte where the cursor stands. -/
def settle {α : Type} (reader : Reader α) : Reader α :=
  tryCatch reader fun
    | .loose cause => fail cause
    | failure => throw failure

/--
Runs a reader and then its closing, which also runs after a failure; the first
failure counts, and it is settled where the closing leaves the cursor.
-/
def closing {α : Type} (reader : Reader α) (close : Reader Unit) : Reader α :=
  settle do
    let outcome ← tryCatch (Except.ok <$> reader) (fun failure => pure (Except.error failure))
    let closed ← tryCatch (Except.ok <$> close) (fun failure => pure (Except.error failure))
    match outcome, closed with
    | .ok value, .ok () => return value
    | .error failure, _ => throw failure
    | _, .error failure => throw failure

def isSpace (char : Char) : Bool :=
  char == ' ' || char == '\n' || char == '\t' || char == '\r'

/-- Passes blanks and shows the character after them. -/
def peekToken? : Reader (Option Char) := do
  let _ ← takeWhile isSpace
  peek?

/-- Shows the character that begins the next token; the end of the text is a failure. -/
def peekToken (atEnd : Cause) : Reader Char := do
  match ← peekToken? with
  | some char => return char
  | none => failAhead atEnd

/-- Passes the rest of a word whose first character is passed. -/
def word : List Char → Reader Unit
  | [] => return ()
  | expected :: rest => do
      let cursor ← get
      match ← next? with
      | none => fail .endOfValue
      | some char =>
          if char = expected then word rest
          else throw (.at .noWord (cursor.passed + 1))

def colon : Reader Unit := do
  if (← peekToken .endOfObject) = ':' then skip else failAhead .noColon

/-- Whether a list goes on with an item. -/
def hasItem (isFirst : Bool) : Reader Bool := do
  let char ← peekToken .endOfList
  if char = ']' then return false
  else if isFirst then return true
  else if char = ',' then
    skip
    if (← peekToken .endOfValue) = ']' then failAhead .trailingComma else return true
  else failAhead .noListComma

/-- Whether an object goes on with a field. -/
def hasField (isFirst : Bool) : Reader Bool := do
  let char ← peekToken .endOfObject
  if char = '}' then return false
  else if isFirst then
    if char = '"' then return true else failAhead .nameNotText
  else if char = ',' then
    skip
    let char ← peekToken .endOfValue
    if char = '"' then return true
    else if char = '}' then failAhead .trailingComma
    else failAhead .nameNotText
  else failAhead .noObjectComma

def closeList : Reader Unit := do
  let char ← peekToken .endOfList
  if char = ']' then skip
  else if char = ',' then
    skip
    match ← peekToken? with
    | some ']' => failAhead .trailingComma
    | _ => failAhead .trailingCharacters
  else failAhead .trailingCharacters

def closeObject : Reader Unit := do
  let char ← peekToken .endOfObject
  if char = '}' then skip
  else if char = ',' then failAhead .trailingComma
  else failAhead .trailingCharacters

def finish : Reader Unit := do
  match ← peekToken? with
  | none => return ()
  | some _ => failAhead .trailingCharacters

def onText {α : Type} (reader : Reader α) (text : String) : Except Refusal α :=
  match ((do let value ← reader; finish; return value : Reader α).run ⟨text.toList, 0⟩).1 with
  | .ok value => .ok value
  | .error (.loose cause) => .error ⟨cause, none⟩
  | .error (.at cause bytes) =>
      .error ⟨cause, some (Place.after (Bytes.ofText text) bytes)⟩

end Reader

end SealedDirectory.Json
