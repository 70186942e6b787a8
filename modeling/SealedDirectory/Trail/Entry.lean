import SealedDirectory.Calendar.Date
import SealedDirectory.Record.Stamp

/-!
# Entries of the trail

An entry of the trail says that one watched column of one record changed: from which
value to which, between which two states of the record, and when that was noted.
The two states are named by their signatures.
-/

namespace SealedDirectory

/-- The value of a column before and after a change. -/
structure Details where
  old : Json
  new : Json
  deriving DecidableEq

structure Entry where
  kind : RecordKind
  entity : String
  column : String
  /-- When the record was changed the time before. -/
  oldTime : Int
  newTime : Int
  oldSignature : Signature
  newSignature : Signature
  details : Details
  /-- The place in the order of the trail. -/
  order : Int
  time : Int
  deriving DecidableEq

namespace Details

/-- The fields of details in a document. -/
def fields :=
  Json.Fields.cons ⟨"old", .document, none⟩ <|
  Json.Fields.cons ⟨"new", .document, none⟩ Json.Fields.nil

def codec : Json.Codec Details :=
  Json.Codec.record "AuditDetails" fields (fun (old, new, ()) => { old, new })
    (fun details => (details.old, details.new, ()))

/-- The text of details as it is stored. -/
def text (details : Details) : String :=
  (codec.write details).compact

end Details

/-- A text of more than twenty characters is cut to seventeen. -/
def shortened (text : String) : String :=
  if 20 < text.length then String.ofList (text.toList.take 17) ++ "..." else text

/-- How a value is shown in one line. -/
def valueText : Json → String
  | .null => "null"
  | .bool true => "true"
  | .bool false => "false"
  | .number value => String.ofList (Json.numberChars value)
  | .text value => "\"" ++ shortened value ++ "\""
  | .list items => "[" ++ toString items.length ++ " items]"
  | .object fields => "\x7b" ++ toString fields.length ++ " fields\x7d"

namespace Entry

/-- The fields of an entry in a document. -/
def fields :=
  Json.Fields.cons ⟨"audit_table", RecordKind.codec, none⟩ <|
  Json.Fields.cons ⟨"audit_id", .text, none⟩ <|
  Json.Fields.cons ⟨"audit_column", .text, none⟩ <|
  Json.Fields.cons ⟨"old_mtime", .int64, none⟩ <|
  Json.Fields.cons ⟨"new_mtime", .int64, none⟩ <|
  Json.Fields.cons ⟨"old_signature", Id.codec .signature, none⟩ <|
  Json.Fields.cons ⟨"new_signature", Id.codec .signature, none⟩ <|
  Json.Fields.cons ⟨"details", Details.codec, none⟩ <|
  Json.Fields.cons ⟨"insert_order", .int64, none⟩ <|
  Json.Fields.cons ⟨"ctime", .int64, none⟩ Json.Fields.nil

def codec : Json.Codec Entry :=
  Json.Codec.record "AuditRecord" fields
    (fun (kind, entity, column, oldTime, newTime, oldSignature, newSignature, details,
        order, time, ()) =>
      { kind, entity, column, oldTime, newTime, oldSignature, newSignature, details,
        order, time })
    (fun entry =>
      (entry.kind, entry.entity, entry.column, entry.oldTime, entry.newTime,
        entry.oldSignature, entry.newSignature, entry.details, entry.order, entry.time, ()))

/-- When the entry was made, for readers. -/
def timeText (entry : Entry) : String :=
  match Calendar.stampText? entry.time with
  | some text => text ++ " UTC"
  | none => toString entry.time

def display (entry : Entry) : String :=
  "[" ++ entry.timeText ++ "] #" ++ toString entry.order ++ " " ++ entry.kind.table ++ " " ++
    entry.entity ++ " " ++ entry.column ++ ": " ++ valueText entry.details.old ++ " -> " ++
    valueText entry.details.new ++ "\n  Signature: " ++ entry.oldSignature.short ++ " -> " ++
    entry.newSignature.short

end Entry

end SealedDirectory
