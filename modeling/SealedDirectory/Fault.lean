import SealedDirectory.Bytes.Base64
import SealedDirectory.Bytes.Utf8
import SealedDirectory.Password.Hash
import SealedDirectory.Record.Org
import SealedDirectory.Record.User

/-!
# Faults

Every operation that can fail fails with a `Fault`, which says what happened and
carries the values that the message shows.  A caller can ask whether something was
not found, whether a signature was stale, or whether a value was already taken; all
other faults are shown as they are.
-/

namespace SealedDirectory

/-- Why a text is not a sealed value. -/
inductive Malformed where
  | encoding (fault : Base64.Fault)
  | short (length : Nat)
  deriving DecidableEq, Repr

def Malformed.message : Malformed → String
  | .encoding fault => "invalid encoding: " ++ fault.message
  | .short length => s!"expected at least 12 bytes, got {length}"

inductive Rule where
  | org (rule : OrgRule)
  | user (rule : UserRule)
  /-- The owner of an organization must be one of its members. -/
  | notMember (user : UserId) (org : OrgId)
  | emptyPassword
  | unknownStatus (code : Int)
  | unknownRole (code : Int)
  | badSignature (text : String)
  /-- A text is no identifier of a user. -/
  | badUserId (text : String)
  | badStatus (text : String)
  | badRole (text : String)
  | badTable (text : String)
  | passwordsDiffer
  | passwordMismatch
  /-- A rule of the caller, in its words. -/
  | stated (message : String)
  deriving DecidableEq, Repr

def Rule.message : Rule → String
  | .org rule => rule.message
  | .user rule => rule.message
  | .notMember member group =>
      "User " ++ member.display ++ " is not a member of org " ++ group.display
  | .emptyPassword => "Password cannot be empty"
  | .unknownStatus code => Status.unknownCode code
  | .unknownRole code => Role.unknownCode code
  | .badSignature text => "Invalid signature: '" ++ text ++ "'"
  | .badUserId text => "Invalid user ID: '" ++ text ++ "'"
  | .badStatus text =>
      "Invalid status: '" ++ text ++ "'. Valid statuses: unconfirmed, active, inactive"
  | .badRole text => "Invalid role: '" ++ text ++ "'. Valid roles: normal, admin, test"
  | .badTable text => "Invalid audit table: '" ++ text ++ "'. Valid tables: orgs, users"
  | .passwordsDiffer => "Passwords do not match"
  | .passwordMismatch => "Password does not match"
  | .stated message => message

inductive StoreFault where
  | noTable (name : String)
  | noColumn (name : String)
  /-- A statement reads a column that does not exist, so many bytes after its beginning. -/
  | noColumnIn (name statement : String) (place : Nat)
  /-- A row would break a condition on its columns. -/
  | check (condition : String)
  /-- A column that must hold something would hold nothing. -/
  | missing (table column : String)
  /-- A column holds a value of another type than its readers expect. -/
  | wrongType (type : String) (index : Nat) (column : String)
  /-- A column holds a text that its readers cannot convert. -/
  | unreadable (index : Nat) (reason : String)
  /-- The details of an entry of the trail are no details. -/
  | badDetails (order : Int) (refusal : Json.Refusal)
  | notStore
  | noFile (path : String)
  deriving DecidableEq, Repr

/-- The wording of a fault of the store. -/
def StoreFault.message : StoreFault → String
  | .noTable name => "SQLite error: no such table: " ++ name
  | .noColumn name => "SQLite error: no such column: " ++ name
  | .noColumnIn name statement place =>
      s!"SQLite error: no such column: {name} in {statement} at offset {place}"
  | .check condition => "SQLite error: CHECK constraint failed: " ++ condition
  | .missing table column =>
      "SQLite error: NOT NULL constraint failed: " ++ table ++ "." ++ column
  | .wrongType type index column =>
      s!"SQLite error: Invalid column type {type} at index: {index}, name: {column}"
  | .unreadable index reason =>
      s!"SQLite error: Conversion error from type Text at index: {index}, {reason}"
  | .badDetails order refusal =>
      s!"Invalid audit details at #{order}: {refusal.message}"
  | .notStore => "SQLite error: file is not a database"
  | .noFile path => "SQLite error: unable to open database file: " ++ path

inductive ConfigFault where
  | keyEncoding (fault : Base64.Fault)
  | noKeyFile (path : String)
  | keyFileExists (path : String)
  | badKeyFile (refusal : Json.Refusal)
  | badSettings (refusal : Json.Refusal)
  | noHome
  deriving DecidableEq, Repr

/-- The wording of a fault of the configuration. -/
def ConfigFault.message : ConfigFault → String
  | .keyEncoding fault => "Invalid key encoding: " ++ fault.message
  | .noKeyFile path => "No key file at " ++ path ++ ". Run `orgvault init` first."
  | .keyFileExists path => "Key file already exists at " ++ path
  | .badKeyFile refusal => "Failed to parse key file: " ++ refusal.message
  | .badSettings refusal => "Failed to parse settings file: " ++ refusal.message
  | .noHome => "Could not determine a home directory"

/-- Why a text could not be sealed or what was opened could not be read. -/
inductive SealFault where
  | notText (fault : Utf8.Fault)
  /-- A user is to be written under another key than the current one. -/
  | notCurrent (user : UserId) (held current : KeyVersion)
  deriving DecidableEq, Repr

/-- The wording of a fault of sealing. -/
def SealFault.message : SealFault → String
  | .notText fault => "Invalid UTF-8 in decrypted data: " ++ fault.message
  | .notCurrent user held current =>
      "User " ++ user.display ++ " is on key " ++ held.short ++
        ", writes require current key " ++ current.short

/-- Why a password cannot be hashed or checked. -/
inductive PasswordFault where
  | costs (fault : Argon2.CostFault)
  | encoding (fault : Password.EncodingFault)
  deriving DecidableEq, Repr

/-- The wording of a fault of a password. -/
def PasswordFault.message : PasswordFault → String
  | .costs fault => "Invalid Argon2 parameters: " ++ fault.message
  | .encoding fault => "Invalid password hash: " ++ fault.message

inductive Fault where
  /-- A version is not in the key ring. -/
  | keyNotFound (version : KeyVersion)
  /-- The version that is to be current is not among the keys. -/
  | currentKeyNotFound (version : KeyVersion)
  | keyLength (actual : Nat)
  | malformed (reason : Malformed)
  /-- A sealed value does not open under the key. -/
  | notAuthentic
  /-- What was opened has another digest than the stored one. -/
  | digestMismatch
  /-- A value is taken, in these columns together. -/
  | taken (columns : List String)
  /-- The signature of a record is not the expected one. -/
  | stale (kind : RecordKind) (id : String) (expected actual : Signature)
  | notFound (kind : RecordKind) (id : String)
  | invalid (rule : Rule)
  | store (fault : StoreFault)
  | config (fault : ConfigFault)
  /-- A file could not be read or written. -/
  | file (message : String)
  | document (refusal : Json.Refusal)
  | exporting (message : String)
  /-- Something could not be sealed or read after opening. -/
  | sealing (fault : SealFault)
  /-- A password could not be hashed or checked. -/
  | password (fault : PasswordFault)
  deriving DecidableEq, Repr

namespace Fault

def message : Fault → String
  | .keyNotFound version => "Key version not found in key ring: " ++ version.display
  | .currentKeyNotFound version =>
      "Current key version not found in key ring: " ++ version.display
  | .keyLength actual => s!"Invalid key length: expected 32 bytes, got {actual}"
  | .malformed reason => "Malformed ciphertext: " ++ reason.message
  | .notAuthentic => "Authentication failed: wrong key or tampered ciphertext"
  | .digestMismatch => "Decrypted value does not match its stored digest"
  | .taken columns =>
      "Unique constraint violation: UNIQUE constraint failed: " ++ ", ".intercalate columns
  | .stale kind id expected actual =>
      "Stale signature for " ++ kind.title ++ " " ++ id ++ ": expected " ++
        expected.display ++ ", found " ++ actual.display
  | .notFound kind id => kind.title ++ " not found: " ++ id
  | .invalid rule => "Validation error: " ++ rule.message
  | .store fault => "Storage error: " ++ fault.message
  | .config fault => "Configuration error: " ++ fault.message
  | .file message => "I/O error: " ++ message
  | .document refusal => "JSON error: " ++ refusal.message
  | .exporting message => "Export error: " ++ message
  | .sealing fault => "Encryption error: " ++ fault.message
  | .password fault => "Password error: " ++ fault.message

def isNotFound : Fault → Bool
  | .notFound _ _ => true
  | _ => false

def isStale : Fault → Bool
  | .stale _ _ _ _ => true
  | _ => false

def isTaken : Fault → Bool
  | .taken _ => true
  | _ => false

end Fault

end SealedDirectory
