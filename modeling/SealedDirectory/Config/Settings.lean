import SealedDirectory.Fault

/-!
# Settings

The settings are a document beside the key file.  Every field may be left out and
then has its usual value, so that a file with a single setting in it is complete; the
three costs of passwords, however, are given together or not at all.
-/

namespace SealedDirectory

structure Settings where
  /-- The version of the layout of this document. -/
  layout : UInt32
  logFilter : String
  costs : Argon2.Costs
  role : Role
  deriving DecidableEq

namespace Settings

/-- The values in force where nothing else is set. -/
def usual : Settings :=
  { layout := 1, logFilter := "warn", costs := Password.usualCosts, role := .normal }

/-- The fields of costs in a document. -/
def costFields :=
  Json.Fields.cons ⟨"memory_cost", .word32, none⟩ <|
  Json.Fields.cons ⟨"time_cost", .word32, none⟩ <|
  Json.Fields.cons ⟨"parallelism", .word32, none⟩ Json.Fields.nil

def costsCodec : Json.Codec Argon2.Costs :=
  Json.Codec.record "PasswordParams" costFields
    (fun (memory, time, lanes, ()) => { memory, time, lanes })
    (fun costs => (costs.memory, costs.time, costs.lanes, ()))

/-- The fields of settings in their document. -/
def fields :=
  Json.Fields.cons ⟨"schema_version", .word32, some usual.layout⟩ <|
  Json.Fields.cons ⟨"log_filter", .text, some usual.logFilter⟩ <|
  Json.Fields.cons ⟨"password", costsCodec, some usual.costs⟩ <|
  Json.Fields.cons ⟨"default_role", Role.codec, some usual.role⟩ Json.Fields.nil

def codec : Json.Codec Settings :=
  Json.Codec.record "Settings" fields
    (fun (layout, logFilter, costs, role, ()) => { layout, logFilter, costs, role })
    (fun settings => (settings.layout, settings.logFilter, settings.costs, settings.role, ()))

def text (settings : Settings) : String :=
  (codec.write settings).pretty

def parse (text : String) : Except Fault Settings :=
  (codec.decode text).mapError fun refusal => .config (.badSettings refusal)

/-- The settings of a file, the usual ones if there is none. -/
def ofFile? (file : Option String) : Except Fault Settings :=
  file.elim (.ok usual) parse

end Settings

end SealedDirectory
