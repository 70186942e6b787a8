/-!
# The form of command lines

A command line is a list of words.  On every level there are options, which begin
with one or two hyphens and may take a value, and places, which take the other words.
On the upper levels a word is instead the name of a command, and the words after it
belong to the level of that command.

The value of an option is the next word or follows an equals sign; a short option may
have its value attached.  A value in a word of its own cannot itself look like an
option.  After two hyphens every word takes a place.  No option may be given twice.  The
letters for help and for the version act at once, whatever is attached to them.
-/

namespace SealedDirectory.Console

/-- What the value of an option may be. -/
inductive ValueForm where
  | text
  | path
  /-- A decimal number of at most sixty-four bits, perhaps with a plus sign. -/
  | count
  | choice (words : List String)
  deriving DecidableEq, Repr

/-- The decimal number of at most sixty-four bits that a word writes, perhaps with a plus sign. -/
def count? (word : String) : Option Nat :=
  let digits := match word.toList with
    | '+' :: rest => rest
    | chars => chars
  let value := digits.foldl (fun total digit => total * 10 + (digit.toNat - 48)) 0
  if digits.isEmpty || !digits.all Char.isDigit || Nat.pow 2 64 ≤ value then none
  else some value

def ValueForm.admits : ValueForm → String → Bool
  | .text, _ => true
  | .path, value => !value.isEmpty
  | .count, value => (count? value).isSome
  | .choice words, value => words.contains value

structure Switch where
  name : String
  letter : Option Char := none
  takesValue : Bool := true
  form : ValueForm := .text
  deriving DecidableEq, Repr

/-- What a level of the command line knows. -/
structure Level where
  switches : List Switch
  /-- The names of the commands below it, each with the names of those below it in turn. -/
  commands : List (String × List String) := []
  places : Nat := 0
  deriving DecidableEq, Repr

/-- What a command line asks for in place of a command. -/
inductive Aside where
  /-- The command line is not in the form of its level. -/
  | malformed
  /-- An overview of the commands is asked for. -/
  | help
  /-- The version of the program is asked for. -/
  | version
  deriving DecidableEq, Repr

/-- The words of one level, sorted out. -/
structure Sorted where
  options : List (String × String) := []
  taken : List String := []
  command : Option (String × List String) := none
  deriving DecidableEq, Repr

namespace Sorted

def value? (sorted : Sorted) (name : String) : Option String :=
  List.lookup name sorted.options

/-- The value of an option that must be given. -/
def value (sorted : Sorted) (name : String) : Except Aside String :=
  (sorted.value? name).elim (.error .malformed) .ok

/-- Whether an option without a value is given. -/
def isSet (sorted : Sorted) (name : String) : Bool :=
  (sorted.value? name).isSome

/-- Adds an option, unless it is there or its value has not the right form. -/
def add (sorted : Sorted) (switch : Switch) (value : String) : Except Aside Sorted :=
  if sorted.isSet switch.name then .error .malformed
  else if switch.takesValue && !switch.form.admits value then .error .malformed
  else .ok { sorted with options := sorted.options ++ [(switch.name, value)] }

end Sorted

inductive Look where
  | divider
  /-- The name of an option, perhaps with a value behind an equals sign. -/
  | long (name : String) (value : Option String)
  /-- The letter of an option, perhaps with a value attached. -/
  | short (letter : Char) (value : Option String)
  | plain
  deriving DecidableEq, Repr

/-- The part before the first equals sign and the part after it. -/
def splitValue (chars : List Char) : String × Option String :=
  let name := chars.takeWhile (· ≠ '=')
  match chars.drop name.length with
  | [] => (String.ofList name, none)
  | _ :: value => (String.ofList name, some (String.ofList value))

def look (word : String) : Look :=
  match word.toList with
  | ['-', '-'] => .divider
  | '-' :: '-' :: rest => .long (splitValue rest).1 (splitValue rest).2
  | ['-'] => .plain
  | ['-', letter] => .short letter none
  | '-' :: letter :: '=' :: value => .short letter (some (String.ofList value))
  | '-' :: letter :: value => .short letter (some (String.ofList value))
  | _ => .plain

/-- Whether a word names an option after two hyphens. -/
def isLong (word : String) : Bool :=
  word.startsWith "--"

namespace Level

/-- The option that a word names, with the value that is attached to it. -/
def switch? (level : Level) (word : String) : Option (Switch × Option String) :=
  match look word with
  | .long name value =>
      (level.switches.find? fun switch => switch.name = name).map fun switch => (switch, value)
  | .short letter value =>
      (level.switches.find? fun switch => switch.letter = some letter).map fun switch =>
        (switch, value)
  | _ => none

def place (level : Level) (sorted : Sorted) (word : String) : Except Aside Sorted :=
  if sorted.taken.length < level.places then
    .ok { sorted with taken := sorted.taken ++ [word] }
  else .error .malformed

/-- What help with some words is: an overview, if they lead to a command. -/
def help (level : Level) (words : List String) : Aside :=
  let isKnown := match words with
    | [] => true
    | [name] => name = "help" || (List.lookup name level.commands).isSome
    | [name, below] =>
        ((List.lookup name level.commands).getD []).any fun known =>
          below = known || below = "help"
    | _ => false
  if isKnown then .help else .malformed

def sort (level : Level) (sorted : Sorted) : List String → Except Aside Sorted
  | [] => .ok sorted
  | word :: rest =>
      match look word with
      | .divider => rest.foldlM level.place sorted
      | .plain =>
          if (List.lookup word level.commands).isSome then
            .ok { sorted with command := some (word, rest) }
          else if word = "help" && !level.commands.isEmpty then .error (level.help rest)
          else do level.sort (← level.place sorted word) rest
      | _ =>
          match level.switch? word with
          | none => .error .malformed
          | some (switch, attached) =>
              if !switch.takesValue then
                if attached.isSome && isLong word then .error .malformed
                else if switch.name = "help" then .error .help
                else if switch.name = "version" then .error .version
                else if attached.isSome then .error .malformed
                else do level.sort (← sorted.add switch "") rest
              else
                match attached with
                | some value => do level.sort (← sorted.add switch value) rest
                | none =>
                    match rest with
                    | [] => .error .malformed
                    | value :: after =>
                        if look value = .plain then do
                          level.sort (← sorted.add switch value) after
                        else .error .malformed

/-- Sorts the words of a level, all of whose places must be taken. -/
def sorted (level : Level) (words : List String) : Except Aside Sorted := do
  let sorted ← level.sort { } words
  if sorted.taken.length = level.places then .ok sorted else .error .malformed

end Level

end SealedDirectory.Console
