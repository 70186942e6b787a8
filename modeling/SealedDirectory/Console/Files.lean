import SealedDirectory.Store.Document

/-!
# Files

What a command sees of the file system is a finite tree of directories, of files with
their texts, and of stores, which are files as well but hold no text.  A place in the tree
is a list of names from the root.  A path in text leads to a place name by name, from the
root or from the current directory, and every name on the way must be one of a directory,
even if two dots lead back from it.

Reading and writing fail in the few ways that matter to a command, and a write that fails
changes nothing.  Making a directory with all that lead to it may stop halfway.
-/

namespace SealedDirectory.Console

inductive Node where
  | directory
  | file (text : String)
  | store (tables : Tables)
  /-- A file that swallows what is written into it. -/
  | sink
  /-- Something that cannot be read, for a reason in words. -/
  | unreadable (reason : String)
  deriving DecidableEq

/-- Why a file cannot be read or written. -/
inductive FileFault where
  /-- There is nothing at the path, or nothing that leads to it. -/
  | missing
  | exists
  /-- A part of the path is no directory. -/
  | notDirectory
  | isDirectory
  /-- The path or a name in it is too long. -/
  | tooLong
  | notText
  | unreadable (reason : String)
  deriving DecidableEq, Repr

def FileFault.message : FileFault → String
  | .missing => "No such file or directory (os error 2)"
  | .exists => "File exists (os error 17)"
  | .notDirectory => "Not a directory (os error 20)"
  | .isDirectory => "Is a directory (os error 21)"
  | .tooLong => "File name too long (os error 36)"
  | .notText => "stream did not contain valid UTF-8"
  | .unreadable reason => reason

structure Files where
  nodes : List (List String × Node)
  current : List String

namespace Files

/-- A tree with nothing but a current directory, the one for passing files, and the sink. -/
def fresh (current : List String) : Files :=
  { nodes :=
      [(current, .directory), (["tmp"], .directory), (["dev"], .directory),
       (["dev", "null"], .sink)]
    current }

/-- Follows names from a place, whatever lies there; a dot stays and two dots go back. -/
def follow (place : List String) : List String → List String
  | [] => place
  | name :: rest =>
      if name.isEmpty || name = "." then follow place rest
      else if name = ".." then follow place.dropLast rest
      else follow (place ++ [name]) rest

/-- Where a path begins: at the root or at the current directory. -/
def start (files : Files) (path : String) : List String :=
  if path.toList.head? = some '/' then [] else files.current

/-- The place that a path names, whatever lies on the way. -/
def resolve (files : Files) (path : String) : List String :=
  follow (files.start path) (path.splitOn "/")

/-- What lies at a place; the root is a directory. -/
def at? (files : Files) (place : List String) : Option Node :=
  if place.isEmpty then some .directory else List.lookup place files.nodes

def longestName : Nat := 255

def longestPath : Nat := 4095

def inDirectory (files : Files) (place : List String) : Except FileFault Unit :=
  match files.at? place with
  | some .directory => .ok ()
  | some _ => .error .notDirectory
  | none => .error .missing

/-- Walks from a place along names; there must be a directory wherever a name is looked up. -/
def walk (files : Files) (place : List String) : List String → Except FileFault (List String)
  | [] => .ok place
  | name :: rest => do
      files.inDirectory place
      if name.isEmpty || name = "." then files.walk place rest
      else if name = ".." then files.walk place.dropLast rest
      else if longestName < name.utf8ByteSize then .error .tooLong
      else files.walk (place ++ [name]) rest

/-- The names of a path that is neither empty nor too long. -/
def names (path : String) : Except FileFault (List String) :=
  if path.isEmpty then .error .missing
  else if longestPath < path.utf8ByteSize then .error .tooLong
  else .ok (path.splitOn "/")

def look (files : Files) (path : String) : Except FileFault Node := do
  let place ← files.walk (files.start path) (← names path)
  (files.at? place).elim (.error .missing) .ok

/-- Whether something lies where a path leads. -/
def holds (files : Files) (path : String) : Bool :=
  (files.look path).toOption.isSome

/-- The directory in which a path ends, the last name, and whether a slash follows it. -/
def ending (files : Files) (path : String) :
    Except FileFault (List String × String × Bool) := do
  let backwards := (← names path).reverse
  let bare := backwards.dropWhile String.isEmpty
  let place ← files.walk (files.start path) (bare.drop 1).reverse
  files.inDirectory place
  return (place, bare.headD ".", bare.length < backwards.length)

/-- The tree with something put at a place. -/
def put (files : Files) (place : List String) (node : Node) : Files :=
  { files with nodes := (place, node) :: files.nodes.filter fun entry => entry.1 ≠ place }

/-- The tree without what lies where a path leads. -/
def remove (files : Files) (path : String) : Files :=
  let place := files.resolve path
  { files with nodes := files.nodes.filter fun entry => entry.1 ≠ place }

def read (files : Files) (path : String) : Except FileFault String := do
  match ← files.look path with
  | .file text => .ok text
  | .store _ => .error .notText
  | .sink => .ok ""
  | .directory => .error .isDirectory
  | .unreadable reason => .error (.unreadable reason)

/-- Whether a name stands for a directory that is known already. -/
def isDots (name : String) : Bool :=
  name = "." || name = ".."

/--
Puts a file into an existing directory.  A path that ends in dots or in a slash is one of a
directory, whatever lies there.
-/
def lay (files : Files) (path : String) (file : Node) : Except FileFault Files := do
  let (place, name, slashed) ← files.ending path
  if isDots name || slashed then .error .isDirectory
  else if longestName < name.utf8ByteSize then .error .tooLong
  else
    match files.at? (place ++ [name]) with
    | some .directory => .error .isDirectory
    | some .sink => .ok files
    | _ => .ok (files.put (place ++ [name]) file)

def write (files : Files) (path text : String) : Except FileFault Files :=
  files.lay path (.file text)

/-- Makes one directory, at which nothing may lie yet. -/
def make (files : Files) (path : String) : Except FileFault Files := do
  let (place, name, _) ← files.ending path
  if isDots name then .error .exists
  else if longestName < name.utf8ByteSize then .error .tooLong
  else if (files.at? (place ++ [name])).isSome then .error .exists
  else .ok (files.put (place ++ [name]) .directory)

/-- Makes one directory unless there is one. -/
def ensure (files : Files) (path : String) : Except FileFault Files :=
  match files.make path with
  | .error .exists =>
      if (files.look path).toOption = some .directory then .ok files else .error .exists
  | made => made

/--
A path and the paths above it, the longest first.  The root and the current directory are
not among them, and neither dots nor doubled slashes make a path of their own.
-/
def upward (path : String) : List String :=
  let rooted := path.toList.head? = some '/'
  let parts := path.splitOn "/"
  let above := parts.tail.filter fun name => !name.isEmpty && name ≠ "."
  let names := if rooted then above else (parts.take 1).filter (!·.isEmpty) ++ above
  if names.isEmpty then []
  else
    path :: ((List.range (names.length - 1)).reverse.map fun count =>
      (if rooted then "/" else "") ++ "/".intercalate (names.take (count + 1)))

/--
Makes the longest of some paths that has a directory to stand in, unless it is there.
Gives the longer ones, which are still to be made, the shortest first.
-/
def makeLongest (files : Files) : List String → Except FileFault (Files × List String)
  | [] => .ok (files, [])
  | path :: above =>
      match files.ensure path with
      | .ok files => .ok (files, [])
      | .error .missing => do
          let (files, remaining) ← files.makeLongest above
          return (files, remaining ++ [path])
      | .error fault => .error fault

/-- Makes directories one after the other; those before a fault stay. -/
def makeEach (files : Files) : List String → Except FileFault Unit × Files
  | [] => (.ok (), files)
  | path :: rest =>
      match files.ensure path with
      | .ok files => files.makeEach rest
      | .error fault => (.error fault, files)

/-- Makes a directory and all that lead to it. -/
def makeDirectory (files : Files) (path : String) : Except FileFault Unit × Files :=
  match files.makeLongest (upward path) with
  | .ok (files, remaining) => files.makeEach remaining
  | .error fault => (.error fault, files)

end Files

end SealedDirectory.Console
