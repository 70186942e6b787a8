import SealedDirectory.Config.Settings
import SealedDirectory.Console.Command
import SealedDirectory.Directory.Users
import SealedDirectory.Report.Listing

/-!
# What commands do in the store

A command about organizations, users or the trail is an operation of the directory
whose answer is put into words.  Texts of the command line are read in the order in
which the command needs them, so the first one that is malformed is reported unless
something else goes wrong before it.
-/

namespace SealedDirectory.Console

/-- What is given beside the command line. -/
structure Given where
  ring : KeyRing
  settings : Settings
  answers : List String

/-- The value of an option, or the fault of a rule. -/
def orInvalid {α : Type} (value : Option α) (rule : Rule) : Work α :=
  value.elim (throw (.invalid rule)) pure

def readSignature (text : String) : Work Signature :=
  orInvalid (Id.parse .signature (Text.trim text)).toOption (.badSignature text)

def readUserId (text : String) : Work UserId :=
  orInvalid (Id.parse .user (Text.trim text)).toOption (.badUserId text)

def readStatus (text : String) : Work Status :=
  orInvalid (Status.parse? text) (.badStatus text)

/-- Reads the role that is given, or takes the usual one. -/
def readRole (settings : Settings) : Option String → Work Role
  | some text => orInvalid (Role.parse? text) (.badRole text)
  | none => return settings.role

def readTable (table : Option String) : Except Fault (Option RecordKind) :=
  table.mapM fun text =>
    match RecordKind.parse? text with
    | some kind => .ok kind
    | none => .error (.invalid (.badTable text))

def noPassword : Fault :=
  .file "Failed to read password: No such device or address (os error 6)"

/-- The encoded password that is given, or the one that is typed twice. -/
def newPassword (given : Given) (password : Option String) : Work String := do
  match password, given.answers with
  | some plain, _ => Directory.newPassword given.settings.costs plain
  | none, first :: second :: _ =>
      if first ≠ second then throw (.invalid .passwordsDiffer)
      Directory.newPassword given.settings.costs first
  | none, _ => throw noPassword

/-- The organization of a name or an identifier, which must exist. -/
def findOrg (text : String) : Work Org := do
  match ← Directory.findOrg? text with
  | some org => return org
  | none => throw (.notFound .org text)

def lines (texts : List String) : String :=
  String.join (texts.map (· ++ "\n"))

/-- An entry below the report of a change. -/
def entryLine (entry : Entry) : String :=
  "  Audit: " ++ "\n  ".intercalate (entry.display.splitOn "\n")

def changeReport {R : Type} [Versioned R] (what : R → String) (mutation : Mutation R) : String :=
  lines (["Updated " ++ what mutation.record,
      "  Signature: " ++ (Versioned.stamp mutation.record).signature.display] ++
    (if mutation.entries.isEmpty then ["  Audit: no watched columns changed"]
      else mutation.entries.map entryLine))

/-- The report of the change of an organization. -/
def orgChange (mutation : Mutation Org) : String :=
  changeReport (fun org => "org: " ++ org.name) mutation

/-- The report of the change of a user. -/
def userChange (mutation : Mutation User) : String :=
  changeReport (fun user => "user: " ++ user.id.display) mutation

/-- What is said of a record that was created with its status. -/
def createdLines (id : String) (stamp : Stamp) : List String :=
  ["  ID:        " ++ id, "  Status:    " ++ stamp.status.name,
    "  Signature: " ++ stamp.signature.display]

/-- What an account says of a new user. -/
def newUser (given : Given) (account : Account) (role : Role) : Work NewUser := do
  let password ← newPassword given account.password
  return { displayName := account.name, publicKey := account.publicKey, email := account.email,
           password, role }

def OrgCommand.answer (given : Given) : OrgCommand → Work String
  | .create name owner status => do
      let role ← readRole given.settings owner.role
      let status ← readStatus status
      let owner ← newUser given owner role
      let created ← Directory.createOrg given.ring { name, owner, role, status }
      return lines (["Created org: " ++ created.org.name] ++
        createdLines created.org.id.display created.org.stamp ++
        ["Owner: " ++ created.owner.displayName] ++
        createdLines created.owner.id.display created.owner.stamp)
  | .list => return Listing.orgs (← Directory.orgs)
  | .view org => do
      let found ← findOrg org
      return Listing.org found (← Directory.members given.ring found.id)
  | .setStatus org status expected => do
      let found ← findOrg org
      let expected ← readSignature expected
      let status ← readStatus status
      return orgChange (← Directory.setOrgStatus given.ring found.id expected status)
  | .setOwner org user expected => do
      let found ← findOrg org
      let expected ← readSignature expected
      let owner ← readUserId user
      return orgChange (← Directory.setOwner given.ring found.id expected owner)
  | .rename org name expected => do
      let found ← findOrg org
      let expected ← readSignature expected
      return orgChange (← Directory.renameOrg given.ring found.id expected name)

/-- The operation that changes a text of a user. -/
def UserText.set (ring : KeyRing) : UserText → UserId → Signature → String → Work (Mutation User)
  | .displayName => Directory.setDisplayName ring
  | .email => Directory.setEmail ring
  | .publicKey => Directory.setPublicKey ring

def UserCommand.answer (given : Given) : UserCommand → Work String
  | .create org account => do
      let found ← findOrg org
      let role ← readRole given.settings account.role
      let user ← Directory.createUser given.ring found.id (← newUser given account role)
      return lines ["Created user: " ++ user.displayName, "  ID:        " ++ user.id.display,
        "  Org:       " ++ found.name, "  Signature: " ++ user.stamp.signature.display]
  | .list org => do
      let found ← findOrg org
      return Listing.users (← Directory.members given.ring found.id)
  | .view user => do
      return Listing.user (← Directory.requireUser given.ring (← readUserId user))
  | .setStatus user status expected => do
      let id ← readUserId user
      let expected ← readSignature expected
      let status ← readStatus status
      return userChange (← Directory.setUserStatus given.ring id expected status)
  | .setText column user value expected => do
      let id ← readUserId user
      let expected ← readSignature expected
      return userChange (← column.set given.ring id expected value)
  | .setPassword user password expected => do
      let id ← readUserId user
      let expected ← readSignature expected
      let encoded ← newPassword given password
      return userChange (← Directory.setPassword given.ring id expected encoded)
  | .checkPassword user password => do
      let id ← readUserId user
      let guess ← (password <|> given.answers.head?).elim (throw noPassword) pure
      if ← Directory.verifyPassword given.ring id guess then return lines ["Password matches."]
      else throw (.invalid .passwordMismatch)
  | .rekey user expected => do
      let id ← readUserId user
      let expected ← readSignature expected
      return userChange (← Directory.rekey given.ring id expected)

/-- The text of an identifier without blanks around it and without one mark of its kind. -/
def bareId (text : String) : String :=
  let chars := Text.trimChars text.toList
  if IdKind.org.mark.isPrefixOf chars then String.ofList (Id.withoutMark .org chars)
  else String.ofList (Id.withoutMark .user chars)

/-- The table of entries of the trail. -/
def trailTable (table id column : Option String) (limit : Option Nat) : Work String := do
  match readTable table with
  | .ok kind =>
      return Listing.trail
        (← Directory.trail { kind, entity := id.map bareId, column, limit })
  | .error fault => throw fault

def exportText (form : ExportForm) (kind : Option RecordKind) : Work String := do
  let entries ← Directory.trail { kind }
  return form.text (Export.ofEntries (← Work.moment) entries)

/-- The number of users on an older key. -/
def staleCount (ring : KeyRing) : Work String := do
  let stale ← Directory.staleUsers ring
  return lines ["", "Users on an older key: " ++ toString stale.length]

/-- Brings all users to the current key. -/
def rekeyAll (ring : KeyRing) : Work String := do
  return lines ["Rekeyed " ++ toString (← Directory.rekeyStale ring) ++ " user(s)"]

end SealedDirectory.Console
