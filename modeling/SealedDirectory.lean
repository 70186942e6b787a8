import SealedDirectory.Bytes.Base64
import SealedDirectory.Bytes.Basic
import SealedDirectory.Bytes.Utf8
import SealedDirectory.Calendar.Date
import SealedDirectory.Calendar.Moment
import SealedDirectory.Cipher.Aes
import SealedDirectory.Cipher.Gcm
import SealedDirectory.Config.Paths
import SealedDirectory.Config.Settings
import SealedDirectory.Console.Answer
import SealedDirectory.Console.Command
import SealedDirectory.Console.Desk
import SealedDirectory.Console.Files
import SealedDirectory.Console.Grammar
import SealedDirectory.Directory.Mutation
import SealedDirectory.Directory.Orgs
import SealedDirectory.Directory.Users
import SealedDirectory.Directory.Versioned
import SealedDirectory.Fault
import SealedDirectory.Hash.Blake2b
import SealedDirectory.Hash.Sha256
import SealedDirectory.Ident.Id
import SealedDirectory.Ident.Uuid
import SealedDirectory.Json.Basic
import SealedDirectory.Json.Cause
import SealedDirectory.Json.Codec
import SealedDirectory.Json.Cursor
import SealedDirectory.Json.Double
import SealedDirectory.Json.Printer
import SealedDirectory.Json.Reader
import SealedDirectory.Json.Record
import SealedDirectory.Key.Basic
import SealedDirectory.Key.Envelope
import SealedDirectory.Key.File
import SealedDirectory.Key.Ring
import SealedDirectory.Key.Versions
import SealedDirectory.Main
import SealedDirectory.Password.Argon2
import SealedDirectory.Password.Encoded
import SealedDirectory.Password.Hash
import SealedDirectory.Proofs.Bytes.Canonical
import SealedDirectory.Proofs.Bytes.Unpadded
import SealedDirectory.Proofs.Bytes.Written
import SealedDirectory.Proofs.Calendar.Days
import SealedDirectory.Proofs.Calendar.Written
import SealedDirectory.Proofs.Config.Settings
import SealedDirectory.Proofs.Directory.Addressing
import SealedDirectory.Proofs.Directory.Aging
import SealedDirectory.Proofs.Directory.Amendment
import SealedDirectory.Proofs.Directory.Change
import SealedDirectory.Proofs.Directory.Collision
import SealedDirectory.Proofs.Directory.Commuting
import SealedDirectory.Proofs.Directory.Creation
import SealedDirectory.Proofs.Directory.Ending
import SealedDirectory.Proofs.Directory.Evolution
import SealedDirectory.Proofs.Directory.Failure
import SealedDirectory.Proofs.Directory.Founding
import SealedDirectory.Proofs.Directory.Frame
import SealedDirectory.Proofs.Directory.Guard
import SealedDirectory.Proofs.Directory.Handles
import SealedDirectory.Proofs.Directory.Issued
import SealedDirectory.Proofs.Directory.Judging
import SealedDirectory.Proofs.Directory.Kept
import SealedDirectory.Proofs.Directory.Lapses
import SealedDirectory.Proofs.Directory.Linear
import SealedDirectory.Proofs.Directory.Linked
import SealedDirectory.Proofs.Directory.Membership
import SealedDirectory.Proofs.Directory.Naming
import SealedDirectory.Proofs.Directory.Places
import SealedDirectory.Proofs.Directory.Plain
import SealedDirectory.Proofs.Directory.Progress
import SealedDirectory.Proofs.Directory.Reach
import SealedDirectory.Proofs.Directory.Refinement
import SealedDirectory.Proofs.Directory.Rekeying
import SealedDirectory.Proofs.Directory.Reloading
import SealedDirectory.Proofs.Directory.Request
import SealedDirectory.Proofs.Directory.Rewriting
import SealedDirectory.Proofs.Directory.Rising
import SealedDirectory.Proofs.Directory.Ruling
import SealedDirectory.Proofs.Directory.Run
import SealedDirectory.Proofs.Directory.Stale
import SealedDirectory.Proofs.Directory.Step
import SealedDirectory.Proofs.Directory.Tampering
import SealedDirectory.Proofs.Directory.Tended
import SealedDirectory.Proofs.Directory.Texts
import SealedDirectory.Proofs.Directory.Trimming
import SealedDirectory.Proofs.Directory.Unambiguous
import SealedDirectory.Proofs.Directory.Verdict
import SealedDirectory.Proofs.Directory.Writing
import SealedDirectory.Proofs.Ident.Canonical
import SealedDirectory.Proofs.Ident.Kinds
import SealedDirectory.Proofs.Json.Composed
import SealedDirectory.Proofs.Json.Documents
import SealedDirectory.Proofs.Json.Edited
import SealedDirectory.Proofs.Json.Foreign
import SealedDirectory.Proofs.Json.Lexical
import SealedDirectory.Proofs.Json.Members
import SealedDirectory.Proofs.Json.Nested
import SealedDirectory.Proofs.Json.Printed
import SealedDirectory.Proofs.Json.Reading
import SealedDirectory.Proofs.Json.Refused
import SealedDirectory.Proofs.Key.Assembly
import SealedDirectory.Proofs.Key.Exactness
import SealedDirectory.Proofs.Key.Gathering
import SealedDirectory.Proofs.Key.Rotation
import SealedDirectory.Proofs.Key.Sealing
import SealedDirectory.Proofs.Key.Stored
import SealedDirectory.Proofs.Password.Checked
import SealedDirectory.Proofs.Password.Printed
import SealedDirectory.Proofs.Report.Documents
import SealedDirectory.Proofs.Report.Lossless
import SealedDirectory.Proofs.Report.Separated
import SealedDirectory.Proofs.Store.Cover
import SealedDirectory.Proofs.Store.Kind
import SealedDirectory.Proofs.Store.Numbers
import SealedDirectory.Proofs.Store.Rows
import SealedDirectory.Proofs.Store.Sound
import SealedDirectory.Proofs.Text.Pieces
import SealedDirectory.Proofs.Text.Trim
import SealedDirectory.Proofs.Trail.Complete
import SealedDirectory.Proofs.Trail.Filled
import SealedDirectory.Proofs.Trail.Gapless
import SealedDirectory.Proofs.Trail.Legible
import SealedDirectory.Proofs.Trail.Links
import SealedDirectory.Proofs.Trail.Noting
import SealedDirectory.Proofs.Trail.Reference
import SealedDirectory.Proofs.Trail.Refusal
import SealedDirectory.Proofs.Trail.Replay
import SealedDirectory.Proofs.Trail.Spared
import SealedDirectory.Proofs.Trail.Spelled
import SealedDirectory.Proofs.Trail.Timely
import SealedDirectory.Proofs.Trail.Twins
import SealedDirectory.Proofs.Trail.Unwatched
import SealedDirectory.Proofs.Work.Drawing
import SealedDirectory.Proofs.Work.Failing
import SealedDirectory.Proofs.Work.Outcome
import SealedDirectory.Record.Org
import SealedDirectory.Record.Stamp
import SealedDirectory.Record.Status
import SealedDirectory.Record.User
import SealedDirectory.Report.Csv
import SealedDirectory.Report.Document
import SealedDirectory.Report.Export
import SealedDirectory.Report.Listing
import SealedDirectory.Store.Cell
import SealedDirectory.Store.Content
import SealedDirectory.Store.Document
import SealedDirectory.Store.Marks
import SealedDirectory.Store.Overwrite
import SealedDirectory.Store.Row
import SealedDirectory.Store.Tables
import SealedDirectory.Text.Blank
import SealedDirectory.Text.Hidden
import SealedDirectory.Text.Visible
import SealedDirectory.Trail.Entry
import SealedDirectory.Trail.Watch
import SealedDirectory.Work.Session
import SealedDirectory.Work.Source
import SealedDirectory.Yaml.Printer
import SealedDirectory.Yaml.Scalar
