import SealedDirectory.Config.Paths
import SealedDirectory.Console.Grammar
import SealedDirectory.Report.Export

/-!
# Commands

The commands with what they are given, and how they are read from the words of a
command line.  Identifiers, signatures, roles and states are still text here: whether
they are well-formed is only asked when the command runs.
-/

namespace SealedDirectory.Console

inductive KeyCommand where
  | generate
  /-- Add a key, and perhaps bring all users to it. -/
  | rotate (rekey : Bool)
  | list
  deriving DecidableEq, Repr

/-- What is given about a user that is to be created. -/
structure Account where
  name : String
  email : String
  publicKey : String
  /-- The password; one that is not given is asked for. -/
  password : Option String
  role : Option String
  deriving DecidableEq, Repr

/-- Commands about organizations, which are given by name or identifier. -/
inductive OrgCommand where
  | create (name : String) (owner : Account) (status : String)
  | list
  | view (org : String)
  | setStatus (org status expected : String)
  | setOwner (org user expected : String)
  | rename (org name expected : String)
  deriving DecidableEq, Repr

/-- Texts of a user that can be changed. -/
inductive UserText where
  | displayName
  | email
  | publicKey
  deriving DecidableEq, Repr

inductive UserCommand where
  | create (org : String) (account : Account)
  | list (org : String)
  | view (user : String)
  | setStatus (user status expected : String)
  | setText (column : UserText) (user value expected : String)
  | setPassword (user : String) (password : Option String) (expected : String)
  | checkPassword (user : String) (password : Option String)
  | rekey (user expected : String)
  deriving DecidableEq, Repr

inductive TrailCommand where
  | list (table id column : Option String) (limit : Option Nat)
  | write (form : ExportForm) (output table : Option String)
  deriving DecidableEq, Repr

inductive Command where
  | none
  | init
  /-- Show where everything is and how it is set. -/
  | config
  | keys (command : KeyCommand)
  | org (command : OrgCommand)
  | user (command : UserCommand)
  | trail (command : TrailCommand)
  deriving DecidableEq, Repr

/-- The number of levels of the command line down to a command. -/
def Command.depth : Command → Nat
  | .none => 1
  | .init | .config => 2
  | .keys _ | .org _ | .user _ | .trail _ => 3

/-- A command with the directories that it is given. -/
structure Invocation where
  /-- The directories that the command line names, that of the deepest level first. -/
  named : List String
  command : Command
  deriving DecidableEq, Repr

/-- The directory, if the command line names one; a deeper level overrules those above. -/
def Invocation.directory (invocation : Invocation) : Option String :=
  invocation.named.head?

def commonSwitches : List Switch :=
  [{ name := "data-dir", form := .path },
   { name := "help", letter := some 'h', takesValue := false }]

def valued (name : String) : Switch := { name }

def leaf (places : Nat) (switches : List Switch) : Level :=
  { switches := commonSwitches ++ switches, places }

/-- The level of commands with a common name. -/
def group (commands : List String) : Level :=
  { switches := commonSwitches, commands := commands.map fun name => (name, []) }

def keyCommands : List String := ["generate", "rotate", "list"]

def orgCommands : List String :=
  ["create", "list", "show", "set-status", "set-owner", "rename"]

def userCommands : List String :=
  ["create", "list", "show", "set-status", "set-display-name", "set-email", "set-public-key",
   "set-password", "check-password", "rekey"]

def trailCommands : List String := ["list", "export"]

def root : Level :=
  { switches := commonSwitches ++ [{ name := "version", letter := some 'V', takesValue := false }]
    commands :=
      [("init", []), ("config", []), ("keys", keyCommands), ("org", orgCommands),
       ("user", userCommands), ("audit", trailCommands)] }

/-- The directories that are named down to a level. -/
def deeper (named : List String) (sorted : Sorted) : List String :=
  (sorted.value? "data-dir").toList ++ named

/-- A command on a level of its own. -/
def ending (level : Level) (named : List String) (words : List String)
    (command : Sorted → Except Aside Command) : Except Aside Invocation := do
  let sorted ← level.sorted words
  return { named := deeper named sorted, command := ← command sorted }

def readForm (word : String) (compact : Bool) : Except Aside ExportForm :=
  match word with
  | "json" => .ok (if compact then .compactJson else .json)
  | "yaml" => .ok .yaml
  | "csv" => .ok .csv
  | _ => .error .malformed

/-- What is given about a user, with a word in front of the names of some options. -/
def account (mark : String) (sorted : Sorted) : Except Aside Account := do
  return {
    name := ← sorted.value (mark ++ "name")
    email := ← sorted.value (mark ++ "email")
    publicKey := ← sorted.value (mark ++ "public-key")
    password := sorted.value? "password"
    role := sorted.value? "role" }

def accountSwitches (mark : String) : List Switch :=
  [valued (mark ++ "name"), valued (mark ++ "email"), valued (mark ++ "public-key"),
    valued "password", valued "role"]

/-- A command that changes a record under its signature. -/
def change (places : Nat) (switches : List Switch) (named : List String)
    (words : List String)
    (command : List String → String → Sorted → Except Aside Command) :
    Except Aside Invocation :=
  ending (leaf places (valued "expected" :: switches)) named words fun sorted => do
    command sorted.taken (← sorted.value "expected") sorted

def readKeys (named : List String) (name : String) (words : List String) :
    Except Aside Invocation :=
  match name with
  | "generate" => ending (leaf 0 []) named words fun _ => .ok (.keys .generate)
  | "rotate" =>
      ending (leaf 0 [{ name := "rekey", takesValue := false }]) named words fun sorted =>
        .ok (.keys (.rotate (sorted.isSet "rekey")))
  | "list" => ending (leaf 0 []) named words fun _ => .ok (.keys .list)
  | _ => .error .malformed

def readOrg (named : List String) (name : String) (words : List String) :
    Except Aside Invocation :=
  match name with
  | "create" =>
      ending (leaf 1 (valued "status" :: accountSwitches "owner-")) named words fun sorted => do
        let owner ← account "owner-" sorted
        let status := (sorted.value? "status").getD "unconfirmed"
        return .org (.create (sorted.taken.headD "") owner status)
  | "list" => ending (leaf 0 []) named words fun _ => .ok (.org .list)
  | "show" =>
      ending (leaf 1 []) named words fun sorted =>
        .ok (.org (.view (sorted.taken.headD "")))
  | "set-status" => change 2 [] named words fun taken expected _ =>
      .ok (.org (.setStatus (taken.headD "") (taken.getD 1 "") expected))
  | "set-owner" => change 2 [] named words fun taken expected _ =>
      .ok (.org (.setOwner (taken.headD "") (taken.getD 1 "") expected))
  | "rename" => change 2 [] named words fun taken expected _ =>
      .ok (.org (.rename (taken.headD "") (taken.getD 1 "") expected))
  | _ => .error .malformed

/-- Reads a command that changes a text of a user. -/
def readText (column : UserText) (named : List String) (words : List String) :
    Except Aside Invocation :=
  change 2 [] named words fun taken expected _ =>
    .ok (.user (.setText column (taken.headD "") (taken.getD 1 "") expected))

def readUser (named : List String) (name : String) (words : List String) :
    Except Aside Invocation :=
  match name with
  | "create" =>
      ending (leaf 1 (accountSwitches "")) named words fun sorted => do
        return .user (.create (sorted.taken.headD "") (← account "" sorted))
  | "list" =>
      ending (leaf 1 []) named words fun sorted =>
        .ok (.user (.list (sorted.taken.headD "")))
  | "show" =>
      ending (leaf 1 []) named words fun sorted =>
        .ok (.user (.view (sorted.taken.headD "")))
  | "set-status" => change 2 [] named words fun taken expected _ =>
      .ok (.user (.setStatus (taken.headD "") (taken.getD 1 "") expected))
  | "set-display-name" => readText .displayName named words
  | "set-email" => readText .email named words
  | "set-public-key" => readText .publicKey named words
  | "set-password" => change 1 [valued "password"] named words fun taken expected sorted =>
      .ok (.user (.setPassword (taken.headD "") (sorted.value? "password") expected))
  | "check-password" =>
      ending (leaf 1 [valued "password"]) named words fun sorted =>
        .ok (.user (.checkPassword (sorted.taken.headD "") (sorted.value? "password")))
  | "rekey" => change 1 [] named words fun taken expected _ =>
      .ok (.user (.rekey (taken.headD "") expected))
  | _ => .error .malformed

def readTrail (named : List String) (name : String) (words : List String) :
    Except Aside Invocation :=
  let lettered (name : String) (letter : Char) : Switch := { name, letter := some letter }
  match name with
  | "list" =>
      ending
        (leaf 0 [lettered "table" 't', lettered "id" 'i', lettered "column" 'c',
          { lettered "limit" 'l' with form := .count }])
        named words fun sorted => do
          return .trail (.list (sorted.value? "table") (sorted.value? "id")
            (sorted.value? "column") ((sorted.value? "limit").bind count?))
  | "export" =>
      ending
        (leaf 0 [{ lettered "format" 'f' with form := .choice ["json", "yaml", "csv"] },
          { lettered "output" 'o' with form := .path },
          { name := "compact", takesValue := false }, lettered "table" 't'])
        named words fun sorted => do
          let form ← readForm ((sorted.value? "format").getD "json") (sorted.isSet "compact")
          return .trail (.write form (sorted.value? "output") (sorted.value? "table"))
  | _ => .error .malformed

/-- Reads the words after the common name of some commands. -/
def readGroup (commands : List String) (named : List String) (words : List String)
    (read : List String → String → List String → Except Aside Invocation) :
    Except Aside Invocation := do
  let sorted ← (group commands).sorted words
  match sorted.command with
  | some (name, rest) => read (deeper named sorted) name rest
  | none => .error .malformed

/--
Reads a command line.  If the variable that names the directory is set to nothing, every
level has to name one.
-/
def Invocation.read (environment : Environment) (words : List String) :
    Except Aside Invocation := do
  let sorted ← root.sorted words
  let named := deeper [] sorted
  let invocation ← match sorted.command with
    | none => .ok { named, command := .none }
    | some ("init", rest) => ending (leaf 0 []) named rest fun _ => .ok .init
    | some ("config", rest) => ending (leaf 0 []) named rest fun _ => .ok .config
    | some ("keys", rest) => readGroup keyCommands named rest readKeys
    | some ("org", rest) => readGroup orgCommands named rest readOrg
    | some ("user", rest) => readGroup userCommands named rest readUser
    | some ("audit", rest) => readGroup trailCommands named rest readTrail
    | some _ => .error .malformed
  if List.lookup DataDirectory.variableName environment = some "" ∧
      invocation.named.length < invocation.command.depth then .error .malformed
  else .ok invocation

end SealedDirectory.Console
