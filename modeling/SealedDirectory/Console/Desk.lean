import SealedDirectory.Console.Answer
import SealedDirectory.Console.Files
import SealedDirectory.Key.File
import SealedDirectory.Store.Document

/-!
# Running a command

A command runs at a desk: the files, the source of time and chance, the answers to
questions for passwords, and what has been printed so far.  It ends well, or with a
fault that is printed to the second stream.  What was written or printed before the
fault stays.
-/

namespace SealedDirectory.Console

structure Desk where
  files : Files
  environment : Environment
  source : Source
  drawn : Drawn := {}
  answers : List String := []
  printed : String := ""
  /-- What has been printed to the second stream. -/
  remarked : String := ""

inductive Failure where
  | fault (reason : Fault)
  /-- Because the directory has a key file already. -/
  | alreadyThere (directory : DataDirectory)
  deriving DecidableEq, Repr

def Failure.message : Failure → String
  | .fault reason => reason.message
  | .alreadyThere directory => "Vault already initialized at " ++ directory.path

abbrev Act (α : Type) := ExceptT Failure (StateM Desk) α

namespace Act

variable {α : Type}

/-- Goes on with a result or ends with its fault. -/
def ofExcept (result : Except Fault α) : Act α :=
  match result with
  | .ok value => return value
  | .error fault => throw (.fault fault)

def print (text : String) : Act Unit :=
  modify fun desk => { desk with printed := desk.printed ++ text }

def printLines (texts : List String) : Act Unit :=
  print (lines texts)

/-- Does something with the files; `purpose` stands before the wording of a fault. -/
def onFiles (purpose : String) (change : Files → Except FileFault Files) : Act Unit := do
  match change (← get).files with
  | .ok files => modify fun desk => { desk with files }
  | .error fault => throw (.fault (.file (purpose ++ fault.message)))

def makeDirectory (directory : DataDirectory) : Act Unit := do
  let (result, files) := (← get).files.makeDirectory directory.path
  modify fun desk => { desk with files }
  match result with
  | .ok () => return ()
  | .error fault =>
      throw (.fault (.file ("Failed to create base directory: " ++ fault.message)))

/-- The text of a file, if there is one. -/
def readFile? (purpose path : String) : Act (Option String) := do
  let files := (← get).files
  if !files.holds path then return none
  match files.read path with
  | .ok text => return some text
  | .error fault => throw (.fault (.file (purpose ++ fault.message)))

def settings (directory : DataDirectory) : Act Settings := do
  ofExcept (Settings.ofFile? (← readFile? "Failed to read settings file: " directory.settingsFile))

def saveSettings (directory : DataDirectory) (settings : Settings) : Act Unit := do
  makeDirectory directory
  onFiles "Failed to write settings file: " (·.write directory.settingsFile settings.text)

def keyFile (directory : DataDirectory) : Act KeyFile := do
  ofExcept (KeyFile.ofFile? directory.keyFile
    (← readFile? "Failed to read key file: " directory.keyFile))

def saveKeyFile (directory : DataDirectory) (file : KeyFile) : Act Unit := do
  makeDirectory directory
  onFiles "Failed to open key file: " (·.write directory.keyFile file.text)

/-- The key ring of the key file. -/
def ring (directory : DataDirectory) : Act KeyRing := do
  ofExcept (← keyFile directory).ring

def freshKey : Act (KeyVersion × Key) := do
  let desk ← get
  set { desk with
    drawn := { desk.drawn with uuid := desk.drawn.uuid + 1, key := desk.drawn.key + 1 } }
  return (⟨desk.source.uuid desk.drawn.uuid⟩, desk.source.key desk.drawn.key)

/-- The most bytes of the path of a store from the root. -/
def longestStorePath : Nat := 504

/-- The store of a file; an empty file is a store without tables yet. -/
def readStore (path : String) (files : Files) : Except Fault Tables :=
  let whole := String.join ((files.resolve path).map ("/" ++ ·))
  if longestStorePath < whole.utf8ByteSize then
    .error (.store (.noFile path))
  else
    match files.look path with
    | .ok (.store tables) => .ok tables
    | .ok (.file "") | .error .missing => .ok Tables.empty
    | .ok (.file _) => .error (.store .notStore)
    | _ => .error (.store (.noFile path))

/-- Runs an operation in the store, which is written back whatever comes of it. -/
def inStore (directory : DataDirectory) (work : Work α) : Act α := do
  makeDirectory directory
  let desk ← get
  let tables ← ofExcept (readStore directory.storeFile desk.files)
  let session := { Session.opened tables desk.source with drawn := desk.drawn }
  let (result, after) := work.runIn session
  onFiles "" (·.lay directory.storeFile (.store after.tables))
  modify fun desk => { desk with drawn := after.drawn }
  ofExcept result

/-- Empties the file of an export before the trail is read; the file may be the store. -/
def beginExport (directory : DataDirectory) (path : String) : Act Unit := do
  onFiles "" (·.write path "")
  match (← get).files.look directory.storeFile with
  | .ok (.store _) => return ()
  | _ => throw (.fault (.store (.noTable "audit")))

/-- Makes the directory, the settings, a key and the store. -/
def init (directory : DataDirectory) : Act Unit := do
  let settings ← settings directory
  if (← get).files.holds directory.keyFile then throw (.alreadyThere directory)
  printLines ["Initializing orgvault at: " ++ directory.path]
  makeDirectory directory
  saveSettings directory settings
  let (version, key) ← freshKey
  saveKeyFile directory (KeyFile.fresh version key)
  inStore directory (return ())
  printLines ["Initialization complete!", "  Key version: " ++ version.display, "",
    "Run 'orgvault org create --help' to add your first org."]

/-- Shows where everything is and how it is set. -/
def config (directory : DataDirectory) : Act Unit := do
  let settings ← settings directory
  let costs := settings.costs
  printLines ["orgvault Configuration", "======================",
    "Base directory: " ++ directory.path, "Settings file:  " ++ directory.settingsFile,
    "Key file:       " ++ directory.keyFile, "Database:       " ++ directory.storeFile, "",
    "Settings:", "  Log filter:   " ++ settings.logFilter,
    "  Default role: " ++ settings.role.name,
    "  Password:     argon2id m=" ++ toString costs.memory.toNat ++ " t=" ++
      toString costs.time.toNat ++ " p=" ++ toString costs.lanes.toNat]

def keys (directory : DataDirectory) : KeyCommand → Act Unit
  | .generate => do
      if (← get).files.holds directory.keyFile then
        throw (.fault (.config (.keyFileExists directory.keyFile)))
      let (version, key) ← freshKey
      saveKeyFile directory (KeyFile.fresh version key)
      printLines ["Generated key file: " ++ directory.keyFile,
        "  Current version: " ++ version.display]
  | .rotate rekey => do
      let file ← keyFile directory
      let (version, key) ← freshKey
      let rotated := file.rotate version key
      saveKeyFile directory rotated
      printLines ["Rotated key: " ++ file.current.display ++ " -> " ++ version.display]
      if rekey then
        let ring ← ofExcept rotated.ring
        print (← inStore directory (rekeyAll ring))
  | .list => do
      let file ← keyFile directory
      printLines (file.keys.keys.map fun version =>
        version.display ++ if version = file.current then " (current)" else "")
      let ring ← ofExcept file.ring
      print (← inStore directory (staleCount ring))

def trail (directory : DataDirectory) : TrailCommand → Act Unit
  | .list table id column limit => do
      print (← inStore directory (trailTable table id column limit))
  | .write form output table => do
      let kind ← inStore directory do
        match readTable table with
        | .ok kind => return kind
        | .error fault => throw fault
      match output with
      | none => print (← inStore directory (exportText form kind))
      | some path =>
          beginExport directory path
          let text ← inStore directory (exportText form kind)
          onFiles "" (·.write path text)
          modify fun desk => { desk with
            remarked := desk.remarked ++ lines ["Exported audit trail to " ++ path] }

def command (directory : DataDirectory) : Command → Act Unit
  | .none => do
      discard <| settings directory
      printLines ["orgvault - encrypted org and user directory", "",
        "Run 'orgvault --help' for usage information."]
  | .init => init directory
  | .config => config directory
  | .keys command => do
      discard <| settings directory
      keys directory command
  | .org command => do
      let settings ← settings directory
      let given : Given := { ring := ← ring directory, settings, answers := (← get).answers }
      print (← inStore directory (command.answer given))
  | .user command => do
      let settings ← settings directory
      let given : Given := { ring := ← ring directory, settings, answers := (← get).answers }
      print (← inStore directory (command.answer given))
  | .trail command => do
      discard <| settings directory
      trail directory command

def invocation (invocation : Invocation) : Act Unit := do
  let directory ←
    ofExcept (DataDirectory.resolve invocation.directory (← get).environment)
  command directory invocation.command

end Act

def overview : String :=
  lines [
    "Encrypted organization and user directory with an audit trail",
    "",
    "Usage: orgvault [--data-dir <DATA_DIR>] [COMMAND]",
    "",
    "Commands:",
    "  init                                     Create the vault directory and its files",
    "  config                                   Show current configuration and paths",
    "  keys generate|rotate|list                Key management commands",
    "  org create|list|show|set-status|set-owner|rename",
    "                                           Org management commands",
    "  user create|list|show|set-status|set-display-name|set-email|set-public-key|",
    "       set-password|check-password|rekey   User management commands",
    "  audit list|export                        Audit trail commands"]

/-- Runs a command line at a desk; gives the exit code. -/
def run (words : List String) (desk : Desk) : Nat × Desk :=
  match Invocation.read desk.environment words with
  | .error .malformed =>
      (2, { desk with remarked := desk.remarked ++ "error: unexpected arguments\n\n" ++ overview })
  | .error .help => (0, { desk with printed := desk.printed ++ overview })
  | .error .version =>
      (0, { desk with printed := desk.printed ++ "orgvault " ++ Export.programVersion ++ "\n" })
  | .ok invocation =>
      match Act.invocation invocation desk with
      | (.ok (), after) => (0, after)
      | (.error failure, after) =>
          (1, { after with
            remarked := after.remarked ++ "Error: " ++ failure.message ++ "\n" })

end SealedDirectory.Console
