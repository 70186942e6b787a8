import SealedDirectory.Directory.Versioned
import SealedDirectory.Proofs.Store.Kind
import SealedDirectory.Proofs.Store.Rows
import SealedDirectory.Proofs.Work.Drawing

/-!
# Records and their rows

A record that is loaded agrees with its row in everything that a change is about: the
identifier, the signature, the time of the last change and the watched columns.  For
users this rests on the digest that is checked when a private text is opened.  A record
that is written over a row leaves its own values there, and the identifier stays.

Both kinds of records are kept in this way, and everything about changes is derived
from that alone.
-/

namespace SealedDirectory

/-! ## Rows that are written over -/

/-- A row of a kind gave place to another one, and nothing else in the tables changed. -/
structure Tables.Overwritten (kind : RecordKind) (old new : kind.Row)
    (before after : Tables) : Prop where
  place : ∃ earlier later,
    before.rows kind = earlier ++ old :: later ∧
      after = kind.view.restore before (earlier ++ new :: later) ∧
      Apart kind.view.uniques new (earlier ++ later)

/-- The row with the changeable columns of an organization. -/
def OrgRow.overwritten (row : OrgRow) (org : Org) : OrgRow :=
  { row with
    name := org.name
    owner := .holds org.owner
    changed := .holds org.stamp.changed
    signature := .holds org.stamp.signature
    status := org.stamp.status
    role := org.stamp.role }

/-- The row with the changeable columns of a user. -/
def UserRow.overwritten (row : UserRow) (user : User) (texts : SealedTexts) : UserRow :=
  { row with
    displayName := texts.displayName.ciphertext
    displayNameDigest := texts.displayName.digest
    publicKey := texts.publicKey.ciphertext
    publicKeyDigest := texts.publicKey.digest
    email := texts.email.ciphertext
    emailDigest := texts.email.digest
    keyVersion := .holds user.keyVersion
    password := user.password
    changed := .holds user.stamp.changed
    signature := .holds user.stamp.signature
    status := user.stamp.status
    role := user.stamp.role }

theorem Tables.overwritten_of_updateRows
    {tables : Tables} (kind : RecordKind) {select : kind.Row → Bool}
    (change : kind.Row → kind.Row) {rows : List kind.Row}
    (updated :
      updateRows kind.view.uniques select (fun row => .ok (change row)) []
        (tables.rows kind) = .ok (rows, 1)) :
    ∃ old, select old = true ∧
      Overwritten kind old (change old) tables (kind.view.restore tables rows) := by
  obtain ⟨earlier, old, later, new, placed, result, selected, changed, apart⟩ :=
    updateRows_one updated
  cases changed
  exact ⟨old, selected, ⟨earlier, later, placed, by rw [result]; rfl, apart⟩⟩

theorem Tables.updateOrg_true
    {before after : Tables} {org : Org} {expected : Signature}
    (updated : before.updateOrg org expected = .ok (after, true)) :
    ∃ old, old.id = .holds org.id ∧ old.signature = .holds expected ∧
      Overwritten .org old (old.overwritten org) before after := by
  simp only [updateOrg, bind_eq_ok] at updated
  rcases updated with ⟨⟨rows, count⟩, changed, last⟩
  simp only [pure, Except.pure, Except.ok.injEq, Prod.mk.injEq, beq_iff_eq] at last
  rcases last with ⟨rfl, rfl⟩
  obtain ⟨old, selected, overwritten⟩ := overwritten_of_updateRows .org
    (fun row => row.overwritten org) changed
  simp only [Bool.decide_and, Bool.and_eq_true, decide_eq_true_eq] at selected
  exact ⟨old, selected.1, selected.2, overwritten⟩

theorem Tables.updateUser_true
    {before after : Tables} {user : User} {texts : SealedTexts} {expected : Signature}
    (updated : before.updateUser user texts expected = .ok (after, true)) :
    ∃ old, old.id = .holds user.id ∧ old.signature = .holds expected ∧
      Overwritten .user old (old.overwritten user texts) before after := by
  simp only [updateUser, bind_eq_ok] at updated
  rcases updated with ⟨⟨rows, count⟩, changed, last⟩
  simp only [pure, Except.pure, Except.ok.injEq, Prod.mk.injEq, beq_iff_eq] at last
  rcases last with ⟨rfl, rfl⟩
  obtain ⟨old, selected, overwritten⟩ := overwritten_of_updateRows .user
    (fun row => row.overwritten user texts) changed
  simp only [Bool.decide_and, Bool.and_eq_true, decide_eq_true_eq] at selected
  exact ⟨old, selected.1, selected.2, overwritten⟩

/-! ## Private texts -/

/-- The digests that are stored with private texts are the digests of a user's texts. -/
structure SealedTexts.Digested (texts : SealedTexts) (user : User) : Prop where
  displayName : texts.displayName.digest = user.displayNameDigest
  publicKey : texts.publicKey.digest = user.publicKeyDigest
  email : texts.email.digest = user.emailDigest

/-- What opens has the digest that is stored beside it. -/
theorem SealedField.fingerprint_of_opened
    {field : SealedField} {ring : KeyRing} {text : String}
    (opened : field.opened ring = .ok text) :
    field.digest = fingerprint text := by
  simp only [SealedField.opened, bind_eq_ok] at opened
  rcases opened with ⟨key, -, opened⟩
  simp only [Envelope.opened] at opened
  split at opened
  · cases opened
  · split at opened
    · cases opened
    · split at opened
      · next same =>
          cases opened
          exact same.symm
      · cases opened

/-- The private texts of a user under the current key of a ring, each with some nonce. -/
structure SealedTexts.SealedFor (texts : SealedTexts) (ring : KeyRing) (user : User) :
    Prop where
  current : user.keyVersion = ring.current
  displayName : ∃ nonce, texts.displayName =
    .enclose ring.currentKey ring.current nonce user.displayName
  publicKey : ∃ nonce, texts.publicKey =
    .enclose ring.currentKey ring.current nonce user.publicKey
  email : ∃ nonce, texts.email = .enclose ring.currentKey ring.current nonce user.email

theorem SealedTexts.SealedFor.digested
    {texts : SealedTexts} {ring : KeyRing} {user : User}
    (sealedFor : texts.SealedFor ring user) :
    texts.Digested user := by
  rcases sealedFor with ⟨-, ⟨_, displayName⟩, ⟨_, publicKey⟩, ⟨_, email⟩⟩
  constructor
  · rw [displayName]
    rfl
  · rw [publicKey]
    rfl
  · rw [email]
    rfl

theorem User.sealTexts_gives
    {ring : KeyRing} {user : User} {texts : SealedTexts} {before after : Session}
    (given : (user.sealTexts ring).Gives before texts after) :
    after.tables = before.tables ∧ after.handed = before.handed ∧
      texts.SealedFor ring user := by
  simp only [User.sealTexts, Work.gives_ite, Work.gives_bind, Work.gives_throw,
    false_and, exists_false, and_false, false_or, Work.gives_pure, Work.gives_freshNonce,
    ne_eq, not_not] at given
  obtain ⟨current, first, afterFirst, ⟨nonce, _, ⟨-, rfl⟩, rfl, rfl⟩, second, afterSecond,
    ⟨_, _, ⟨-, rfl⟩, rfl, rfl⟩, third, afterThird, ⟨_, _, ⟨-, rfl⟩, rfl, rfl⟩, rfl, rfl⟩ :=
    given
  exact ⟨rfl, rfl, current, ⟨_, rfl⟩, ⟨_, rfl⟩, ⟨_, rfl⟩⟩

theorem User.orderly_sealTexts (ring : KeyRing) (user : User) :
    (user.sealTexts ring).Orderly := by
  have enclosed (text : String) : Work.Orderly (do
      return SealedField.enclose ring.currentKey ring.current (← Work.freshNonce) text) :=
    Work.orderly_freshNonce.bind fun _ => Work.orderly_pure _
  apply Work.Orderly.ite
  · exact (Work.orderly_throw _).bind fun _ =>
      (enclosed _).bind fun _ => (enclosed _).bind fun _ =>
        (enclosed _).bind fun _ => Work.orderly_pure _
  · exact (enclosed _).bind fun _ => (enclosed _).bind fun _ =>
      (enclosed _).bind fun _ => Work.orderly_pure _

/-- A user as a row shows it: every column is the user's, and so are the digests. -/
def User.StoredIn (user : User) (row : UserRow) : Prop :=
  ∃ texts : SealedTexts, row = .ofUser user texts ∧ texts.Digested user

/-! ## Rows that are loaded -/

theorem mapM_eq_ok_some
    {ε α β : Type} {option : Option α} {f : α → Except ε β} {value : β} :
    option.mapM f = .ok (some value) ↔
      ∃ found, option = some found ∧ f found = .ok value := by
  cases option with
  | none => simp [pure, Except.pure]
  | some found => cases outcome : f found <;> simp [Functor.map, Except.map, outcome]

/-- The row of a stored organization is the row of the organization that is loaded. -/
theorem Tables.org?_eq_some
    {tables : Tables} {id : OrgId} {org : Org}
    (written : ∀ row ∈ tables.rows .org, RecordKind.Written .org row)
    (loaded : tables.org? id = .ok (some org)) :
    tables.row? .org id.uuid = some (OrgRow.ofOrg org) := by
  rcases mapM_eq_ok_some.mp loaded with ⟨row, found, read⟩
  rcases written row (List.mem_of_find?_eq_some found) with ⟨stored, rfl⟩
  rw [OrgRow.toOrg_ofOrg, Except.ok.injEq] at read
  subst read
  exact found

/-- A user that opens is stored in the row that was opened. -/
theorem User.storedIn_of_opened
    {row : UserRow} {stored : StoredUser} {ring : KeyRing} {user : User}
    (written : RecordKind.Written .user row)
    (read : row.toStored = .ok stored)
    (opened : stored.opened ring = .ok user) :
    user.StoredIn row := by
  rcases written with ⟨kept, texts, rfl⟩
  cases read
  simp only [StoredUser.opened, bind_eq_ok] at opened
  rcases opened with ⟨displayName, openedName, publicKey, openedKey, email, openedEmail, last⟩
  cases last
  exact ⟨⟨⟨_, _, kept.keyVersion⟩, ⟨_, _, kept.keyVersion⟩, ⟨_, _, kept.keyVersion⟩⟩, rfl,
    SealedField.fingerprint_of_opened openedName,
    SealedField.fingerprint_of_opened openedKey,
    SealedField.fingerprint_of_opened openedEmail⟩

theorem Tables.user?_eq_some
    {tables : Tables} {ring : KeyRing} {id : UserId} {user : User}
    (written : ∀ row ∈ tables.rows .user, RecordKind.Written .user row)
    (loaded : tables.user? ring id = .ok (some user)) :
    ∃ row, tables.row? .user id.uuid = some row ∧ user.StoredIn row := by
  simp only [user?, bind_eq_ok] at loaded
  rcases loaded with ⟨stored?, asked, loaded⟩
  rcases mapM_eq_ok_some.mp loaded with ⟨stored, rfl, opened⟩
  rcases mapM_eq_ok_some.mp asked with ⟨row, found, read⟩
  have inTable : row ∈ tables.rows .user := List.mem_of_find?_eq_some found
  exact ⟨row, found, User.storedIn_of_opened (written row inTable) read opened⟩

/-! ## Both kinds are kept alike -/

/-- A row agrees with a record in everything that a change is about. -/
structure Shows {R : Type} [Versioned R] (record : R) (row : (Versioned.kind R).Row) :
    Prop where
  id : (Versioned.kind R).idCell row = .holds ⟨(Versioned.id record).uuid⟩
  signature :
    (Versioned.kind R).signatureCell row = .holds (Versioned.stamp record).signature
  changed : (Versioned.kind R).changedCell row = .holds (Versioned.stamp record).changed
  watched : ∀ watch ∈ Versioned.watched,
    (((Versioned.kind R).contents row).value watch.column).shown = watch.value record

/-- A row gave place to one that shows a record, under the guard of a signature. -/
structure OverwrittenBy {R : Type} [Versioned R] (record : R) (expected : Signature)
    (old new : (Versioned.kind R).Row) (before after : Tables) : Prop where
  overwritten : Tables.Overwritten (Versioned.kind R) old new before after
  guarded : (Versioned.kind R).signatureCell old = .holds expected
  sameId : (Versioned.kind R).idCell new = (Versioned.kind R).idCell old
  sameOrder : (Versioned.kind R).orderCell new = (Versioned.kind R).orderCell old
  written : (Versioned.kind R).Written old → (Versioned.kind R).Written new
  shows : Shows record new

/-- What the theory of changes needs to know of a kind of records. -/
class Kept (R : Type) [Versioned R] : Prop where
  /-- The columns that are watched are those that the trail has to tell of. -/
  columns :
    (Versioned.watched (R := R)).map Watch.column = (Versioned.kind R).watchedColumns
  stamp_withStamp (record : R) (stamp : Stamp) :
    Versioned.stamp (Versioned.withStamp record stamp) = stamp
  found {tables : Tables} {ring : KeyRing} {id : Id (Versioned.idKind R)} {record : R}
    (written : ∀ row ∈ tables.rows (Versioned.kind R), (Versioned.kind R).Written row)
    (loaded : Versioned.find tables ring id = .ok (some record)) :
    ∃ row, tables.row? (Versioned.kind R) id.uuid = some row ∧ Shows record row
  overwritten {ring : KeyRing} {record : R} {expected : Signature}
    {before after : Session}
    (given : (Versioned.overwrite ring record expected).Gives before true after) :
    ∃ old new, OverwrittenBy record expected old new before.tables after.tables
  orderly (ring : KeyRing) (record : R) (expected : Signature) :
    (Versioned.overwrite ring record expected).Orderly

/-- A row shows an organization if the cells that a change is about agree with it. -/
theorem Org.shows_of_cells
    {org : Org} (row : RecordKind.Row .org)
    (id : OrgRow.id row = .holds org.id)
    (signature : OrgRow.signature row = .holds org.stamp.signature)
    (changed : OrgRow.changed row = .holds org.stamp.changed)
    (owner : OrgRow.owner row = .holds org.owner)
    (status : OrgRow.status row = org.stamp.status) :
    Shows org row := by
  refine ⟨id, signature, changed, ?_⟩
  intro watch member
  simp only [Versioned.watched, Org.watched, List.mem_cons, List.not_mem_nil,
    or_false] at member
  rcases member with rfl | rfl
  · exact congrArg (fun cell => cell.content.shown) owner
  · exact congrArg (fun status : Status => Json.integer status.code) status

/-- A row shows a user if the cells that a change is about agree with it. -/
theorem User.shows_of_cells
    {user : User} (row : RecordKind.Row .user)
    (id : UserRow.id row = .holds user.id)
    (signature : UserRow.signature row = .holds user.stamp.signature)
    (changed : UserRow.changed row = .holds user.stamp.changed)
    (publicKey : UserRow.publicKeyDigest row = user.publicKeyDigest)
    (displayName : UserRow.displayNameDigest row = user.displayNameDigest)
    (keyVersion : UserRow.keyVersion row = .holds user.keyVersion)
    (password : UserRow.password row = user.password)
    (status : UserRow.status row = user.stamp.status) :
    Shows user row := by
  refine ⟨id, signature, changed, ?_⟩
  intro watch member
  simp only [Versioned.watched, User.watched, List.mem_cons, List.not_mem_nil,
    or_false] at member
  rcases member with rfl | rfl | rfl | rfl | rfl
  · exact congrArg Json.text publicKey
  · exact congrArg Json.text displayName
  · exact congrArg (fun cell => cell.content.shown) keyVersion
  · exact congrArg Json.text password
  · exact congrArg (fun status : Status => Json.integer status.code) status

instance : Kept Org where
  columns := rfl
  stamp_withStamp := fun _ _ => rfl
  found := by
    intro tables ring id org written loaded
    exact ⟨_, Tables.org?_eq_some written loaded, Org.shows_of_cells _ rfl rfl rfl rfl rfl⟩
  overwritten := by
    intro ring org expected before after given
    rcases Work.gives_answer.mp given with ⟨tables, updated, rfl⟩
    rcases Tables.updateOrg_true updated with ⟨old, sameId, guarded, overwritten⟩
    refine ⟨old, old.overwritten org, overwritten, guarded, rfl, rfl, ?_,
      Org.shows_of_cells _ sameId rfl rfl rfl rfl⟩
    rintro ⟨stored, rfl⟩
    exact ⟨{ org with
      id := stored.id
      stamp := { org.stamp with
        created := stored.stamp.created
        order := stored.stamp.order
        layout := stored.stamp.layout } }, rfl⟩
  orderly := fun _ _ _ => Work.orderly_answer fun _ _ _ => .updateOrg

/-- A user is written over its row with its texts sealed anew. -/
theorem User.overwrite_gives
    {ring : KeyRing} {user : User} {expected : Signature} {before after : Session}
    (given : (user.overwrite ring expected).Gives before true after) :
    ∃ (texts : SealedTexts) (old : UserRow), texts.SealedFor ring user ∧
      old.id = .holds user.id ∧ old.signature = .holds expected ∧
      Tables.Overwritten .user old (old.overwritten user texts) before.tables after.tables := by
  simp only [User.overwrite, Work.gives_bind] at given
  rcases given with ⟨texts, middle, encloses, answered⟩
  rcases User.sealTexts_gives encloses with ⟨sameTables, -, sealedFor⟩
  rcases Work.gives_answer.mp answered with ⟨tables, updated, rfl⟩
  rw [sameTables] at updated
  rcases Tables.updateUser_true updated with ⟨old, sameId, guarded, overwritten⟩
  exact ⟨texts, old, sealedFor, sameId, guarded, overwritten⟩

instance : Kept User where
  columns := rfl
  stamp_withStamp := fun _ _ => rfl
  found := by
    intro tables ring id user written loaded
    rcases Tables.user?_eq_some written loaded with ⟨row, found, texts, rfl, digested⟩
    exact ⟨_, found, User.shows_of_cells _ rfl rfl rfl digested.publicKey digested.displayName
      rfl rfl rfl⟩
  overwritten := by
    intro ring user expected before after given
    rcases User.overwrite_gives given with ⟨texts, old, sealedFor, sameId, guarded, overwritten⟩
    have digested := sealedFor.digested
    refine ⟨old, old.overwritten user texts, overwritten, guarded, rfl, rfl, ?_,
      User.shows_of_cells _ sameId rfl rfl digested.publicKey digested.displayName rfl rfl rfl⟩
    rintro ⟨stored, kept, rfl⟩
    exact ⟨{ user with
      id := stored.id
      org := stored.org
      stamp := { user.stamp with
        created := stored.stamp.created
        order := stored.stamp.order
        layout := stored.stamp.layout } }, texts, rfl⟩
  orderly := fun ring user _ =>
    (User.orderly_sealTexts ring user).bind fun _ =>
      Work.orderly_answer fun _ _ _ => .updateUser

end SealedDirectory
