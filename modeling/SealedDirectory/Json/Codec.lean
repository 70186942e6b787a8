import SealedDirectory.Json.Reader

/-!
# Codecs

A codec says how the values of a type are written as documents and how they come
back, either from the characters of a text or from a document that is already there.
Reading a text reports the first fault from left to right.

Codecs are composed: of a number, a text or a document, and of lists, maps and
values with a rule of their own.
-/

namespace SealedDirectory.Json

/-- How values of a type are written and read. -/
structure Codec (α : Type) where
  write : α → Json
  /-- Reads a value from a text in which so many levels may still be open. -/
  read : (depth : Nat) → Reader α
  take : Json → Except Cause α
  /-- The value of a field that is missing. -/
  absent : Option α := none

namespace Codec

def decode {α : Type} (codec : Codec α) (text : String) : Except Refusal α :=
  Reader.onText (codec.read Reader.depthLimit) text

def document : Codec Json where
  write := id
  read := Reader.value
  take := .ok

/-- The whole number of a number, within a range. -/
def bounded (expected : String) (low high : Int) (held : Number) : Except Cause Int :=
  match held with
  | .integer value =>
      if low ≤ value ∧ value ≤ high then .ok value
      else .error (.wrongValue (.number held) expected)
  | .float _ => .error (.wrongKind (.number held) expected)

def integerBetween (expected : String) (low high : Int) : Codec Int where
  write := .integer
  read := fun _ => do
    if Reader.beginsNumber (← Reader.peekToken .endOfValue) then
      match bounded expected low high (← Reader.number) with
      | .ok value => return value
      | .error cause => Reader.fail cause
    else Reader.wrongKind expected
  take := fun document =>
    match document with
    | .number held => bounded expected low high held
    | other => .error (.wrongKind other.found expected)

/-- Whole numbers of sixty-four bits with a sign. -/
def int64 : Codec Int :=
  integerBetween "i64" (-9223372036854775808) 9223372036854775807

def textForm {α : Type} (expected : String) (write : α → String)
    (parse : String → Except String α) : Codec α where
  write := fun value => .text (write value)
  read := fun _ => do
    if (← Reader.peekToken .endOfValue) = '"' then
      match parse (← Reader.name) with
      | .ok value => return value
      | .error message => Reader.fail (.refused message)
    else Reader.wrongKind expected
  take := fun document =>
    match document with
    | .text content => (parse content).mapError .refused
    | other => .error (.wrongKind other.found expected)

def text : Codec String :=
  textForm "a string" id .ok

/-- Values with a rule, written as values of another type. -/
def guarded {α β : Type} (codec : Codec β) (write : α → β) (accept : β → Except String α) :
    Codec α where
  write := fun value => codec.write (write value)
  read := fun depth => do
    match accept (← codec.read depth) with
    | .ok value => return value
    | .error message => Reader.refuse (.refused message)
  take := fun document => do
    (accept (← codec.take document)).mapError .refused

/-- Whole numbers of thirty-two bits without a sign. -/
def word32 : Codec UInt32 :=
  (integerBetween "u32" 0 4294967295).guarded (fun word => word.toNat) fun number =>
    .ok (UInt32.ofNat number.toNat)

def optional {α : Type} (codec : Codec α) : Codec (Option α) where
  write := fun value =>
    match value with
    | none => .null
    | some value => codec.write value
  read := fun depth => do
    if (← Reader.peekToken?) = some 'n' then
      Reader.skip
      Reader.word ['u', 'l', 'l']
      return none
    else return some (← codec.read depth)
  take := fun document =>
    match document with
    | .null => .ok none
    | other => some <$> codec.take other
  absent := some none

def list {α : Type} (codec : Codec α) : Codec (List α) where
  write := fun values => .list (values.map codec.write)
  read := fun depth => do
    if (← Reader.peekToken .endOfValue) = '[' then
      Reader.enter depth fun depth =>
        Reader.closing
          (do Reader.items (codec.read depth) true (← Reader.fuel))
          Reader.closeList
    else Reader.wrongKind "a sequence"
  take := fun document =>
    match document with
    | .list items => items.mapM codec.take
    | other => .error (.wrongKind other.found "a sequence")

/-- One of a few words, each of which may also be the only field of an object. -/
def oneOf {α : Type} (expected : String) (write : α → String) (find : String → Option α) :
    Codec α where
  write := fun value => .text (write value)
  read := fun depth => do
    let variant : Reader α := do
      if (← Reader.peekToken .endOfValue) = '"' then
        let word ← Reader.name
        match find word with
        | some value => return value
        | none => Reader.fail (.unknownWord word expected)
      else Reader.wrongKind "variant identifier"
    let char ← Reader.peekToken .endOfValue
    if char = '{' then
      Reader.enter depth fun _ => do
        let value ← variant
        Reader.colon
        if (← Reader.peekToken .endOfValue) = 'n' then
          Reader.skip
          Reader.word ['u', 'l', 'l']
        else Reader.wrongKind "unit"
        if (← Reader.peekToken .endOfObject) = '}' then
          Reader.skip
          return value
        else Reader.fail .noValue
    else if char = '"' then variant
    else Reader.failAhead .noValue
  take := fun document =>
    match document with
    | .text word => (find word).elim (.error (.unknownWord word expected)) .ok
    | .object [(word, content)] =>
        match find word, content with
        | none, _ => .error (.unknownWord word expected)
        | some value, .null => .ok value
        | some _, other => .error (.wrongKind other.found "unit")
    | .object fields => .error (.wrongValue (found (.object fields)) "map with a single key")
    | other => .error (.wrongKind other.found "string or map")

/-- Maps whose names have a form, as associations in the order in which `insert` puts them. -/
def assoc {κ α σ : Type} (codec : Codec α) (writeName : κ → String)
    (parseName : String → Except String κ) (empty : σ) (insert : κ → α → σ → σ)
    (toList : σ → List (κ × α)) : Codec σ where
  write := fun entries =>
    .object ((toList entries).map fun (name, value) => (writeName name, codec.write value))
  read := fun depth => do
    if (← Reader.peekToken .endOfValue) = '{' then
      Reader.enter depth fun depth =>
        Reader.closing
          (do
            let step (held : σ) : Reader σ := do
              match parseName (← Reader.name) with
              | .error message => Reader.refuse (.refused message)
              | .ok name =>
                  Reader.colon
                  return insert name (← codec.read depth) held
            Reader.fields step true (← Reader.fuel) empty)
          Reader.closeObject
    else Reader.wrongKind "a map"
  take := fun document =>
    match document with
    | .object fields =>
        fields.foldlM
          (fun held (name, value) => do
            let name ← (parseName name).mapError Cause.refused
            return insert name (← codec.take value) held)
          empty
    | other => .error (.wrongKind other.found "a map")

end Codec

end SealedDirectory.Json
