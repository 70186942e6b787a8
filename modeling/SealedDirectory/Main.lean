import SealedDirectory.Console.Desk
import Std.Time

/-!
# The program

The outermost layer takes a picture of the files that a command may touch, runs the
command on it, and carries the differences back: directories are made, files are
written, and the key file is made readable for its owner alone.  It also reads the
clock, draws a seed, and asks for passwords.
-/

namespace SealedDirectory.Program

open Console

/-- What lies at a path of the real file system. -/
def lookAt (path : String) : IO (Option Node) := do
  try
    let text ← IO.FS.readFile path
    return some ((Tables.ofText? text).elim (.file text) .store)
  catch error =>
    match error with
    | .noFileOrDirectory .. => return none
    | .inappropriateType _ code _ => return if code = 21 then some .directory else none
    | other => return some (.unreadable (toString other))

def absolute (place : List String) : String :=
  "/" ++ "/".intercalate place

/-- All beginnings of a list, the list itself last. -/
def beginnings (names : List String) : List (List String) :=
  (List.range names.length).map fun count => names.take (count + 1)

/-- The places that a path passes, and all places above them. -/
def passed (files : Files) (path : String) : List (List String) :=
  ([] :: beginnings (path.splitOn "/")).flatMap fun names =>
    beginnings (Files.follow (files.start path) names)

/-- A picture of what lies at some paths and on the way to them. -/
def picture (current : List String) (paths : List String) : IO Files := do
  let empty : Files := { nodes := [], current }
  let wanted := (paths.flatMap (passed empty)).eraseDups
  wanted.foldlM
    (fun files path => do
      match ← lookAt (absolute path) with
      | some node => return files.put path node
      | none => return files)
    empty

/-- The paths that a command may touch. -/
def touched (environment : Environment) (words : List String) : List String :=
  match Invocation.read environment words with
  | .error _ => []
  | .ok invocation =>
      let output := match invocation.command with
        | .trail (.write _ (some path) _) => [path]
        | _ => []
      match DataDirectory.resolve invocation.directory environment with
      | .error _ => output
      | .ok directory =>
          [directory.path, directory.settingsFile, directory.keyFile, directory.storeFile] ++ output

/-- The questions that a command asks before it runs. -/
def questions (environment : Environment) (words : List String) : List String :=
  match (Invocation.read environment words).toOption.map Invocation.command with
  | some (.org (.create _ { password := none, .. } _))
  | some (.user (.create _ { password := none, .. }))
  | some (.user (.setPassword _ none _)) => ["Password: ", "Confirm password: "]
  | some (.user (.checkPassword _ none)) => ["Password: "]
  | _ => []

def ask (input : IO.FS.Stream) : List String → IO (List String)
  | [] => return []
  | question :: rest => do
      IO.eprint question
      let line ← input.getLine
      if line.isEmpty then return []
      else return (line.dropEndWhile fun char => char == '\n' || char == '\r').toString ::
        (← ask input rest)

/-- Writes a node that is new or has changed. -/
def carry (before : Files) (keyFile : List String) (entry : List String × Node) : IO Unit := do
  let (path, node) := entry
  if before.at? path ≠ some node then
    match node with
    | .directory => IO.FS.createDirAll (absolute path)
    | .file text =>
        IO.FS.writeFile (absolute path) text
        if path = keyFile then
          IO.setAccessRights (absolute path) { user := { read := true, write := true } }
    | .store tables => IO.FS.writeFile (absolute path) tables.text
    | .sink | .unreadable _ => pure ()

def readEnvironment : IO Environment := do
  let named ← [DataDirectory.variableName, "XDG_CONFIG_HOME", "HOME"].mapM fun name => do
    return (← IO.getEnv name).map fun value => (name, value)
  return named.filterMap id

def present : IO Calendar.Moment := do
  let now ← Std.Time.Timestamp.now
  let nanos := now.toNanosecondsSinceUnixEpoch.val
  return { seconds := nanos.fdiv 1000000000, nanos := (nanos.fmod 1000000000).toNat }

def execute (words : List String) : IO UInt32 := do
  let environment ← readEnvironment
  let current := (← IO.currentDir).toString.splitOn "/"
  let files ← picture (Files.follow [] current) (touched environment words)
  let seed ← IO.getRandomBytes 32
  let desk : Desk :=
    { files, environment
      source := Source.ofSeed seed.toList (← present)
      answers := ← ask (← IO.getStdin) (questions environment words) }
  let (code, after) := Console.run words desk
  let keyFile := match touched environment words with
    | _ :: _ :: path :: _ => files.resolve path
    | _ => []
  after.files.nodes.reverse.forM (carry files keyFile)
  IO.print after.printed
  IO.eprint after.remarked
  return UInt32.ofNat code

end SealedDirectory.Program

def main (words : List String) : IO UInt32 :=
  SealedDirectory.Program.execute words
