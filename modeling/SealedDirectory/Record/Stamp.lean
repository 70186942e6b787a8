import SealedDirectory.Ident.Id
import SealedDirectory.Record.Status

/-!
# Stamps

Every organization and every user carries a stamp: when it was created and last
changed, its place in the order of insertion, its current signature, its status and
role, and the version of its layout.

A stamp is made once, when the record is created, and renewed by every change.  A
renewed stamp has a fresh signature and never an earlier time than the one before
it, whatever the clock says; the time of creation and the place in the order stay.
-/

namespace SealedDirectory

structure Stamp where
  created : Int
  /-- When the record was last changed, in seconds. -/
  changed : Int
  order : Int
  signature : Signature
  status : Status
  role : Role
  layout : Int
  deriving DecidableEq, Repr

def Id.codec (kind : IdKind) : Json.Codec (Id kind) :=
  Json.Codec.textForm "a formatted UUID string" Id.bare fun text =>
    match Uuid.parse text with
    | .ok uuid => .ok ⟨uuid⟩
    | .error fault => .error ("UUID parsing failed: " ++ fault.message)

namespace Stamp

/-- The version of the layout of new records. -/
def currentLayout : Int := 0

/-- The stamp of a record that is created now. -/
def initial (now order : Int) (signature : Signature) (status : Status) (role : Role)
    (layout : Int) : Stamp :=
  { created := now, changed := now, order, signature, status, role, layout }

/-- The stamp of a changed record, from the stamps before and after the change. -/
def renewed (before after : Stamp) (now : Int) (signature : Signature) : Stamp :=
  { after with
    changed := max now before.changed
    signature
    created := before.created
    order := before.order }

/-- The fields of a stamp in a document. -/
def fields :=
  Json.Fields.cons ⟨"ctime", .int64, none⟩ <|
  Json.Fields.cons ⟨"mtime", .int64, none⟩ <|
  Json.Fields.cons ⟨"insert_order", .int64, none⟩ <|
  Json.Fields.cons ⟨"signature", Id.codec .signature, none⟩ <|
  Json.Fields.cons ⟨"status", Status.codec, none⟩ <|
  Json.Fields.cons ⟨"role", Role.codec, none⟩ <|
  Json.Fields.cons ⟨"schema_version", .int64, none⟩ Json.Fields.nil

def codec : Json.Codec Stamp :=
  Json.Codec.record "Metadata" fields
    (fun (created, changed, order, signature, status, role, layout, ()) =>
      { created, changed, order, signature, status, role, layout })
    (fun stamp =>
      (stamp.created, stamp.changed, stamp.order, stamp.signature, stamp.status,
        stamp.role, stamp.layout, ()))

theorem changed_le_changed_renewed (before after : Stamp) (now : Int)
    (signature : Signature) :
    before.changed ≤ (renewed before after now signature).changed := by
  simp only [renewed]
  omega

end Stamp

end SealedDirectory
