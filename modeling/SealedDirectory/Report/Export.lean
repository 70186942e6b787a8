import SealedDirectory.Calendar.Moment
import SealedDirectory.Report.Csv
import SealedDirectory.Trail.Entry
import SealedDirectory.Yaml.Printer

/-!
# Exports of the trail

The trail, or the part of it that a filter asks for, is exported as a document with
the versions of the format and of the program, the moment of the export, the entries
in their order and a summary of them; in JSON or in the block format.  As
comma-separated records it is exported without any frame, under a line of headings.
-/

namespace SealedDirectory

/-- How many entries an export has, and where they begin and end. -/
structure Summary where
  count : Int
  first : Option Int
  last : Option Int
  deriving DecidableEq

structure Export where
  format : String
  moment : Calendar.Moment
  program : String
  entries : List Entry
  summary : Summary
  deriving DecidableEq

namespace Summary

def ofEntries (entries : List Entry) : Summary :=
  { count := entries.length
    first := entries.head?.map Entry.order
    last := entries.getLast?.map Entry.order }

/-- The fields of a summary in a document. -/
def fields :=
  Json.Fields.cons ⟨"record_count", .integerBetween "usize" 0 18446744073709551615, none⟩ <|
  Json.Fields.cons ⟨"first_insert_order", .optional .int64, none⟩ <|
  Json.Fields.cons ⟨"last_insert_order", .optional .int64, none⟩ Json.Fields.nil

def codec : Json.Codec Summary :=
  Json.Codec.record "ExportMetadata" fields
    (fun (count, first, last, ()) => { count, first, last })
    (fun summary => (summary.count, summary.first, summary.last, ()))

end Summary

namespace Export

/-- The version of the format of exports. -/
def currentFormat : String := "1.0.0"

def programVersion : String := "0.1.0"

/-- The export of entries at a moment. -/
def ofEntries (moment : Calendar.Moment) (entries : List Entry) : Export :=
  { format := currentFormat
    moment
    program := programVersion
    entries
    summary := Summary.ofEntries entries }

/-- The fields of an export in its document. -/
def fields :=
  Json.Fields.cons ⟨"schema_version", .text, none⟩ <|
  Json.Fields.cons ⟨"exported_at", Calendar.Moment.codec, none⟩ <|
  Json.Fields.cons ⟨"app_version", .text, none⟩ <|
  Json.Fields.cons ⟨"records", .list Entry.codec, none⟩ <|
  Json.Fields.cons ⟨"metadata", Summary.codec, none⟩ Json.Fields.nil

def codec : Json.Codec Export :=
  Json.Codec.record "AuditExport" fields
    (fun (format, moment, program, entries, summary, ()) =>
      { format, moment, program, entries, summary })
    (fun document =>
      (document.format, document.moment, document.program, document.entries,
        document.summary, ()))

/-- The export in JSON, over several lines or on one. -/
def json (document : Export) (pretty : Bool) : String :=
  let written := codec.write document
  if pretty then written.pretty else written.compact

/-- The export in the block format, under a heading of comments. -/
def yaml (document : Export) : String :=
  "# orgvault audit trail export\n# Generated: " ++ document.moment.display ++
    "\n# App Version: " ++ document.program ++ "\n\n" ++ Yaml.write (codec.write document)

def headings : List String :=
  ["insert_order", "ctime", "audit_table", "audit_id", "audit_column", "old_mtime",
   "new_mtime", "old_signature", "new_signature", "details"]

/-- The fields of an entry under the headings. -/
def row (entry : Entry) : List (List Char) :=
  [Json.integerChars entry.order, Json.integerChars entry.time, entry.kind.table.toList,
   entry.entity.toList, entry.column.toList, Json.integerChars entry.oldTime,
   Json.integerChars entry.newTime, entry.oldSignature.bare.toList,
   entry.newSignature.bare.toList, entry.details.text.toList]

def csv (entries : List Entry) : String :=
  Csv.write (headings.map String.toList :: entries.map row)

end Export

/-- The forms in which the trail is exported. -/
inductive ExportForm where
  | json
  | compactJson
  | yaml
  | csv
  deriving DecidableEq, Repr

/-- The text of an export in a form. -/
def ExportForm.text (form : ExportForm) (document : Export) : String :=
  match form with
  | .json => document.json true
  | .compactJson => document.json false
  | .yaml => document.yaml
  | .csv => Export.csv document.entries

end SealedDirectory
