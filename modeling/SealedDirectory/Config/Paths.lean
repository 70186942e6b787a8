import SealedDirectory.Fault

/-!
# Where the files are

Settings, keys and the store lie side by side in one directory.  It is named on the
command line or in the environment; otherwise it is a directory of the program below
the usual place for configuration.
-/

namespace SealedDirectory

/-- The variables of the environment with their values. -/
abbrev Environment := List (String × String)

/-- The value of a variable, if it is set to something. -/
def Environment.get? (environment : Environment) (name : String) : Option String :=
  (List.lookup name environment).filter fun value => !value.isEmpty

structure DataDirectory where
  path : String
  deriving DecidableEq, Repr

namespace DataDirectory

/-- The path of something in a directory; the empty path adds nothing. -/
def within (path name : String) : String :=
  if path.isEmpty || path.toList.getLast? == some '/' then path ++ name
  else path ++ "/" ++ name

def settingsFile (directory : DataDirectory) : String :=
  within directory.path "config.json"

def keyFile (directory : DataDirectory) : String :=
  within directory.path "keys.json"

def storeFile (directory : DataDirectory) : String :=
  within directory.path "vault.db"

def variableName : String := "ORGVAULT_DATA_DIR"

/-- The usual place for configuration; a relative path does not count as one. -/
def configurationHome? (environment : Environment) : Option String :=
  let absolute := (environment.get? "XDG_CONFIG_HOME").filter fun path =>
    path.toList.head? == some '/'
  absolute <|> (environment.get? "HOME").map fun home => within home ".config"

/-- The directory that is named, the one of the environment, or the usual one. -/
def resolve (named : Option String) (environment : Environment) :
    Except Fault DataDirectory :=
  match named <|> environment.get? variableName with
  | some path => .ok ⟨path⟩
  | none =>
      match configurationHome? environment with
      | some home => .ok ⟨within home "orgvault"⟩
      | none => .error (.config .noHome)

end DataDirectory

end SealedDirectory
