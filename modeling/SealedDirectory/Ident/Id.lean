import SealedDirectory.Ident.Uuid

/-!
# Identifiers of four kinds

Organizations, users, versions of keys and signatures are all named by universally
unique identifiers.  The kind of an identifier is part of its type, so that one kind
cannot be used for another.  In text an identifier carries a mark of its kind; in
storage and in documents it is the bare canonical text.
-/

namespace SealedDirectory

inductive IdKind where
  | org
  | user
  | key
  | signature
  deriving DecidableEq, Repr

def IdKind.mark : IdKind → List Char
  | .org => ['o', 'r', 'g', '-']
  | .user => ['u', 's', 'r', '-']
  | .key => ['k', 'e', 'y', '-']
  | .signature => ['s', 'i', 'g', '-']

structure Id (kind : IdKind) where
  uuid : Uuid
  deriving DecidableEq, Repr

abbrev OrgId := Id .org

abbrev UserId := Id .user

abbrev KeyVersion := Id .key

/-- The fingerprint that a record has in one of its states. -/
abbrev Signature := Id .signature

namespace Id

variable {kind : IdKind}

def bare (id : Id kind) : String :=
  id.uuid.text

/-- The text with the mark of the kind. -/
def display (id : Id kind) : String :=
  String.ofList (kind.mark ++ id.uuid.chars)

/-- The mark and the first eight digits. -/
def short (id : Id kind) : String :=
  String.ofList (kind.mark ++ id.uuid.shortText.toList)

/-- Characters without the mark of a kind, if they begin with it. -/
def withoutMark (kind : IdKind) (chars : List Char) : List Char :=
  if kind.mark.isPrefixOf chars then chars.drop kind.mark.length else chars

/-- Reads an identifier with or without its mark. -/
def parse (kind : IdKind) (text : String) : Except Uuid.Fault (Id kind) :=
  (Uuid.ofChars (withoutMark kind text.toList)).map Id.mk

/-- Identifiers of one kind are ordered by their digits. -/
instance : LT (Id kind) := ⟨fun left right => left.uuid < right.uuid⟩

instance (left right : Id kind) : Decidable (left < right) :=
  inferInstanceAs (Decidable (left.uuid < right.uuid))

theorem lt_irrefl (id : Id kind) : ¬ id < id :=
  Uuid.lt_irrefl id.uuid

theorem lt_trans {first second third : Id kind} (before : first < second)
    (after : second < third) : first < third :=
  Uuid.lt_trans before after

theorem lt_of_not_lt_of_ne {left right : Id kind} (notBelow : ¬ left < right)
    (different : left ≠ right) : right < left :=
  Uuid.lt_of_not_lt_of_ne notBelow fun same =>
    different (by cases left; cases right; simpa using same)

instance : Inhabited (Id kind) := ⟨⟨default⟩⟩

end Id

end SealedDirectory
