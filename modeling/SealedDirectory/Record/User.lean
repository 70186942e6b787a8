import SealedDirectory.Hash.Sha256
import SealedDirectory.Record.Stamp

/-!
# Users

A user is a member of one organization.  The display name, the public key and the
email address are private: here they are in plain text, and at rest they are sealed.
The digest of each of them is a function of the text, so it cannot disagree with it.
-/

namespace SealedDirectory

/-- The digest of a text: the hexadecimal SHA-256 of its UTF-8 form. -/
def fingerprint (text : String) : String :=
  Bytes.toHex (Sha256.digest (Bytes.ofText text))

structure User where
  id : UserId
  org : OrgId
  displayName : String
  publicKey : String
  email : String
  /-- The version of the key under which the private texts were last sealed. -/
  keyVersion : KeyVersion
  password : String
  stamp : Stamp
  deriving DecidableEq, Repr

/-- Why the texts of a user are refused. -/
inductive UserRule where
  | emptyDisplayName
  | emptyPublicKey
  /-- The email address is blank or has no at sign. -/
  | badEmail (email : String)
  | emptyPassword
  deriving DecidableEq, Repr

def UserRule.message : UserRule → String
  | .emptyDisplayName => "Display name cannot be empty"
  | .emptyPublicKey => "Public key cannot be empty"
  | .badEmail email => "Invalid email address: '" ++ email ++ "'"
  | .emptyPassword => "Password hash cannot be empty"

/-- What is needed to create a user. -/
structure NewUser where
  displayName : String
  publicKey : String
  email : String
  password : String
  role : Role := .normal
  deriving DecidableEq, Repr

/-- What is needed to create an organization together with its owner. -/
structure NewOrg where
  name : String
  owner : NewUser
  role : Role := .normal
  status : Status := .unconfirmed
  deriving DecidableEq, Repr

/-- Checks the texts of a user in their order. -/
def UserRule.check (displayName publicKey email password : String) :
    Except UserRule Unit :=
  let address := Text.trim email
  if (Text.trim displayName).isEmpty then .error .emptyDisplayName
  else if (Text.trim publicKey).isEmpty then .error .emptyPublicKey
  else if address.isEmpty ∨ ¬ address.toList.contains '@' then .error (.badEmail address)
  else if password.isEmpty then .error .emptyPassword
  else .ok ()

/-- Checks a user that is to be created. -/
def NewUser.check (new : NewUser) : Except UserRule Unit :=
  UserRule.check new.displayName new.publicKey new.email new.password

namespace User

def check (user : User) : Except UserRule Unit :=
  UserRule.check user.displayName user.publicKey user.email user.password

def displayNameDigest (user : User) : String := fingerprint user.displayName

def publicKeyDigest (user : User) : String := fingerprint user.publicKey

def emailDigest (user : User) : String := fingerprint user.email

/-- The name with the address behind it. -/
def display (user : User) : String :=
  user.displayName ++ " <" ++ user.email ++ ">"

end User

end SealedDirectory
