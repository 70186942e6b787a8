import SealedDirectory.Proofs.Directory.Change
import SealedDirectory.Proofs.Key.Sealing

/-!
# When a change succeeds

A change of a record succeeds if the record is loaded under the expected signature, its
row can be written over, and the signature that is drawn for it was never issued and
nothing in the trail is about it.  Private texts that were just sealed can be loaded
again.
-/

namespace SealedDirectory

namespace Session

/-- The next identifiers, so many of them, differ from each other. -/
def DrawsApart
    (session : Session)
    (count : Nat) :
    Prop :=
  ∀ first < count, ∀ second < count,
    session.uuidAhead first = session.uuidAhead second → first = second

/-- Between two sessions so many identifiers were drawn from one source. -/
structure Drew
    (count : Nat)
    (before after : Session) :
    Prop where
  source : after.source = before.source
  uuid : after.drawn.uuid = before.drawn.uuid + count

theorem Drew.trans
    {first second : Nat}
    {before middle after : Session}
    (begins : Drew first before middle)
    (ends : Drew second middle after) :
    Drew (first + second) before after where
  source := ends.source.trans begins.source
  uuid := by rw [ends.uuid, begins.uuid, Nat.add_assoc]

theorem Drew.uuidAhead_eq
    {count : Nat}
    {before after : Session}
    (drew : Drew count before after)
    (further : Nat) :
    after.uuidAhead further = before.uuidAhead (count + further) := by
  rw [uuidAhead, uuidAhead, drew.source, drew.uuid, Nat.add_assoc]

end Session

/-- No row of the trail is about these columns of a change. -/
def Tables.Unnoted
    (tables : Tables)
    (old new : Signature)
    (columns : List String) :
    Prop :=
  ∀ row ∈ tables.trail, row.column ∈ columns →
    row.oldSignature ≠ .holds old ∧ row.newSignature ≠ .holds new

theorem Tables.insertEntry_succeeds
    {tables : Tables}
    {entry : Entry}
    (unnoted : tables.Unnoted entry.oldSignature entry.newSignature [entry.column])
    (above : ∀ row ∈ tables.trail, row.order ≠ .holds entry.order) :
    tables.insertEntry entry = .ok (tables.noting [entry]) := by
  have apart : Apart EntryRow.uniques (.ofEntry entry) tables.trail := by
    intro unique rule row member
    have differs (same : row.column = entry.column) :=
      unnoted row member (by simp [same])
    simp only [EntryRow.uniques, List.mem_cons, List.not_mem_nil, or_false] at rule
    rcases rule with rfl | rfl | rfl
    · by_cases same : row.column = entry.column
      · simp [EntryRow.ofEntry, Cell.clashes_eq_false.mpr (differs same).1]
      · simp [EntryRow.ofEntry, Ne.symm same]
    · by_cases same : row.column = entry.column
      · simp [EntryRow.ofEntry, Cell.clashes_eq_false.mpr (differs same).2]
      · simp [EntryRow.ofEntry, Ne.symm same]
    · exact Cell.clashes_eq_false.mpr (above row member)
  exact bind_eq_ok.mpr ⟨_, insertRow_eq_ok.mpr ⟨apart, rfl⟩, rfl⟩

namespace Work

theorem Gives.bind
    {α β : Type}
    {work : Work α}
    {next : α → Work β}
    {first : α}
    {value : β}
    {before middle after : Session}
    (begins : Gives work before first middle)
    (ends : Gives (next first) middle value after) :
    Gives (work >>= next) before value after :=
  gives_bind.mpr ⟨first, middle, begins, ends⟩

variable {session : Session}

theorem pure_succeeds
    {α : Type}
    (session : Session)
    (value : α) :
    (pure value : Work α).Gives session value session :=
  rfl

theorem now_succeeds (session : Session) :
    now.Gives session (session.source.clock session.drawn.clock).seconds
      (afterClock session) :=
  rfl

theorem freshId_succeeds
    (session : Session)
    (kind : IdKind) :
    (freshId kind).Gives session ⟨session.uuidAhead 0⟩ (afterUuid session) :=
  rfl

theorem require_succeeds
    {ρ : Type}
    {check : Except ρ Unit}
    {fault : ρ → Fault}
    (session : Session)
    (passes : check = .ok ()) :
    (require check fault).Gives session () session :=
  gives_require.mpr ⟨passes, rfl⟩

theorem execute_succeeds
    {statement : Tables → Except Fault Tables}
    {tables : Tables}
    (stated : statement session.tables = .ok tables) :
    (execute statement).Gives session () { session with tables } :=
  gives_execute.mpr ⟨tables, stated, rfl⟩

/-- A number can be drawn if the store answers. -/
theorem nextNumber_succeeds
    (numbered : session.tables.Numbered)
    (sequence : Sequence) :
    ∃ number later, (nextNumber sequence).Gives session number later ∧
      later.tables = session.tables ∧ session.Drew 0 later := by
  rcases numbered.knows sequence with ⟨stored, knows⟩
  exact ⟨_, _, gives_nextNumber.mpr ⟨stored, knows.found, rfl, rfl⟩, rfl, rfl, rfl⟩

/-! ## Noting a change -/

section

variable
  {R : Type}
  [Versioned R]
  {before after : R}

/-- One change is noted if no row of the trail is about it. -/
theorem noteChange_succeeds
    {change : String × Details}
    (time : Int)
    (numbered : session.tables.Numbered)
    (unnoted : session.tables.Unnoted (Versioned.stamp before).signature
      (Versioned.stamp after).signature [change.1]) :
    ∃ entry later, (noteChange before after time change).Gives session entry later ∧
      session.Drew 0 later := by
  rcases numbered.knows .trail with ⟨stored, knows⟩
  have drawn := gives_nextNumber.mpr ⟨stored, knows.found, rfl, rfl⟩
  have above : ∀ row ∈ session.tables.trail,
      row.order ≠ .holds (max (session.marks.last .trail) stored + 1) := by
    intro row member holds
    have inTrail : .holds (max (session.marks.last .trail) stored + 1) ∈
        session.tables.trail.map EntryRow.order := by
      rw [← holds]
      exact List.mem_map_of_mem member
    have bound := knows.above _ (by simp [Tables.usedNumbers]) _ inTrail
    omega
  exact ⟨_, _, drawn.bind ((execute_succeeds (Tables.insertEntry_succeeds unnoted above)).bind
    (pure_succeeds _ _)), rfl, rfl⟩

/-- Changes of different columns are noted one after the other. -/
theorem mapM_noteChange_succeeds
    {changes : List (String × Details)}
    (time : Int)
    (numbered : session.tables.Numbered)
    (nodup : (changes.map Prod.fst).Nodup)
    (unnoted : session.tables.Unnoted (Versioned.stamp before).signature
      (Versioned.stamp after).signature (changes.map Prod.fst)) :
    ∃ entries later, (changes.mapM (noteChange before after time)).Gives session
      entries later ∧ later.tables = session.tables.noting entries ∧
      session.Drew 0 later := by
  induction changes generalizing session with
  | nil => exact ⟨[], session, pure_succeeds _ _, by simp, rfl, rfl⟩
  | cons change changes ih =>
      rw [List.map_cons, List.nodup_cons] at nodup
      have unnotedHere : session.tables.Unnoted (Versioned.stamp before).signature
          (Versioned.stamp after).signature [change.1] := by
        intro row member isHere
        exact unnoted row member (by simp [List.mem_singleton.mp isHere])
      obtain ⟨entry, middle, given, drew⟩ :=
        noteChange_succeeds time numbered unnotedHere
      rcases numbered.knows .trail with ⟨stored, knows⟩
      obtain ⟨told, -, -, -, tables, numberedThen, -⟩ :=
        noteChange_gives numbered knows given
      have column : entry.column = change.1 := congrArg Prod.fst told
      have unnotedThen : middle.tables.Unnoted (Versioned.stamp before).signature
          (Versioned.stamp after).signature (changes.map Prod.fst) := by
        rw [tables]
        intro row member isThere
        rcases List.mem_append.mp member with old | new
        · exact unnoted row old (List.mem_cons_of_mem _ isThere)
        · obtain rfl := List.mem_singleton.mp new
          exact absurd (column ▸ isThere) nodup.1
      obtain ⟨entries, later, rest, tablesThen, drewThen⟩ :=
        ih numberedThen nodup.2 unnotedThen
      refine ⟨entry :: entries, later, ?_, ?_, drew.trans drewThen⟩
      · rw [List.mapM_cons]
        exact given.bind (rest.bind (pure_succeeds _ _))
      · rw [tablesThen, tables, Tables.noting_cons]

/-- All changes are noted if the trail knows neither signature. -/
theorem note_succeeds
    [Kept R]
    (numbered : session.tables.Numbered)
    (unnoted : ∀ columns, session.tables.Unnoted (Versioned.stamp before).signature
      (Versioned.stamp after).signature columns) :
    ∃ entries later, (note before after).Gives session entries later ∧
      later.tables = session.tables.noting entries ∧ session.Drew 0 later := by
  have noted : ((changes Versioned.watched before after).map Prod.fst).Sublist
      ((Versioned.watched (R := R)).map Watch.column) := by
    generalize Versioned.watched (R := R) = watched
    induction watched with
    | nil => exact .slnil
    | cons watch rest ih =>
        by_cases same : watch.value before = watch.value after
        · simpa [changes, Watch.change?, same] using ih.cons watch.column
        · simpa [changes, Watch.change?, same] using ih.cons_cons watch.column
  rw [Kept.columns] at noted
  have nodup := noted.nodup (RecordKind.nodup_watchedColumns (Versioned.kind R))
  have clocked : (afterClock session).tables.Numbered := numbered
  obtain ⟨entries, later, given, tables, drew⟩ := mapM_noteChange_succeeds
    (session.source.clock session.drawn.clock).seconds clocked nodup (unnoted _)
  exact ⟨entries, later, (now_succeeds session).bind given, tables, drew.source, drew.uuid⟩

/-! ## Changing a record -/

/-- A change succeeds if each of its steps can be done. -/
theorem mutate_succeeds
    [Kept R]
    {ring : KeyRing}
    {id : Id (Versioned.idKind R)}
    {change : R → Work R}
    {loaded changed : R}
    {written : Session}
    (sound : session.tables.Sound)
    (found : Versioned.find session.tables ring id = .ok (some loaded))
    (changes : (change loaded).Gives session changed session)
    (overwrites : (Versioned.overwrite ring (renewal ring session loaded changed)
      (Versioned.stamp loaded).signature).Gives (afterUuid (afterClock session)) true written)
    (drew : session.Drew 1 written)
    (fresh : ¬ session.tables.Registered ⟨session.uuidAhead 0⟩)
    (unnoted : ∀ columns, session.tables.Unnoted (Versioned.stamp loaded).signature
      ⟨session.uuidAhead 0⟩ columns) :
    ∃ mutation after,
      (mutate ring id (Versioned.stamp loaded).signature change).Gives
        session mutation after ∧
      mutation.record = renewal ring session loaded changed ∧
      (∀ kind, after.tables.rows kind = written.tables.rows kind) ∧ session.Drew 1 after := by
  have signature : (Versioned.stamp (renewal ring session loaded changed)).signature =
      ⟨session.uuidAhead 0⟩ := by
    rw [renewal, Kept.stamp_withStamp]
    rfl
  have restamps : (restamped loaded (Versioned.prepared ring changed)).Gives session
      (renewal ring session loaded changed) (afterUuid (afterClock session)) :=
    rfl
  generalize renewal ring session loaded changed = record at *
  rcases Kept.overwritten overwrites with ⟨old, new, overwritten⟩
  have replaced : Tables.Overwritten (Versioned.kind R) old new session.tables
      written.tables := overwritten.overwritten
  have numbered : written.tables.Numbered := overwritten.numbered sound
  rw [← signature, ← replaced.registered_iff] at fresh
  have unnotedThen : ∀ columns, written.tables.Unnoted (Versioned.stamp loaded).signature
      (Versioned.stamp record).signature columns := by
    intro columns row member
    rw [replaced.trail_eq] at member
    rw [signature]
    exact unnoted columns row member
  let registered : Session := { written with
    tables := written.tables.registering (Versioned.stamp record).signature
      (Versioned.kind R) (Versioned.stamp record).changed }
  have registers : written.tables.register (Versioned.stamp record).signature
      (Versioned.kind R) (Versioned.stamp record).changed = .ok registered.tables :=
    Tables.register_eq_ok.mpr ⟨fresh, rfl⟩
  have numberedThen : registered.tables.Numbered := numbered
  obtain ⟨entries, after, notes, tables, drewThen⟩ :=
    note_succeeds numberedThen unnotedThen
  have rows : ∀ kind, after.tables.rows kind = written.tables.rows kind := by
    intro kind
    rw [tables, Tables.rows_noting, Tables.rows_registering]
  have drewBoth : session.Drew 1 after :=
    ⟨drewThen.source.trans drew.source, drewThen.uuid.trans drew.uuid⟩
  refine ⟨⟨record, entries⟩, after, ?_, rfl, rows, drewBoth⟩
  simp only [mutate, gives_bind, gives_ite, gives_throw, gives_pure, gives_load,
    gives_execute, false_and, and_false, false_or, exists_false]
  exact ⟨loaded, session, ⟨found, rfl⟩, by simp, changed, session, changes, record, _,
    restamps, true, written, overwrites, by simp, (), registered,
    ⟨registered.tables, registers, rfl⟩, entries, after, notes, rfl, rfl⟩

end

end Work

/-! ## Sealed texts of a user -/

/-- The sealed texts of a user open to its private texts. -/
structure SealedTexts.OpenTo
    (texts : SealedTexts)
    (ring : KeyRing)
    (user : User) :
    Prop where
  displayName :
    SealedField.opened ⟨texts.displayName.ciphertext, texts.displayName.digest,
      user.keyVersion⟩ ring = .ok user.displayName
  publicKey :
    SealedField.opened ⟨texts.publicKey.ciphertext, texts.publicKey.digest,
      user.keyVersion⟩ ring = .ok user.publicKey
  email :
    SealedField.opened ⟨texts.email.ciphertext, texts.email.digest,
      user.keyVersion⟩ ring = .ok user.email

/-- What is sealed under the current key of a ring is opened by every ring with that key. -/
theorem SealedTexts.SealedFor.openTo
    {texts : SealedTexts}
    {ring reader : KeyRing}
    {user : User}
    (sealedFor : texts.SealedFor ring user)
    (sameKey : reader.get ring.current = ring.get ring.current) :
    texts.OpenTo reader user := by
  rcases sealedFor with ⟨current, ⟨first, displayName⟩, ⟨second, publicKey⟩, ⟨third, email⟩⟩
  have opens (nonce : Nonce) (text : String) :
      (SealedField.enclose ring.currentKey ring.current nonce text).opened reader =
        .ok text := by
    rw [← SealedField.opened_enclose ring nonce text, SealedField.opened, SealedField.opened]
    exact congrArg (· >>= _) sameKey
  constructor
  · rw [displayName, current]
    exact opens first user.displayName
  · rw [publicKey, current]
    exact opens second user.publicKey
  · rw [email, current]
    exact opens third user.email

/-- The private texts of a user, sealed with the nonces that are drawn next. -/
def User.sealedTexts
    (user : User)
    (ring : KeyRing)
    (session : Session) :
    SealedTexts :=
  let enclosed (number : Nat) (text : String) : SealedField :=
    .enclose ring.currentKey ring.current
      (session.source.nonce (session.drawn.nonce + number)) text
  ⟨enclosed 0 user.displayName, enclosed 1 user.publicKey, enclosed 2 user.email⟩

/-- The session after the private texts of a user were sealed. -/
def Work.afterSealing (session : Session) : Session :=
  afterNonce (afterNonce (afterNonce session))

theorem User.sealTexts_draws
    {ring : KeyRing}
    {user : User}
    (session : Session)
    (current : user.keyVersion = ring.current) :
    (user.sealTexts ring).Gives session (user.sealedTexts ring session)
      (Work.afterSealing session) := by
  rw [User.sealTexts, if_neg (by simpa using current)]
  rfl

theorem User.openTo_sealedTexts
    {ring : KeyRing}
    {user : User}
    (session : Session)
    (current : user.keyVersion = ring.current) :
    (user.sealedTexts ring session).OpenTo ring user :=
  (sealTexts_gives (sealTexts_draws session current)).2.2.openTo rfl

/-- A user under the current version is sealed so that it can be opened again. -/
theorem User.sealTexts_succeeds
    {ring : KeyRing}
    (user : User)
    (session : Session)
    (current : user.keyVersion = ring.current) :
    ∃ texts later, (user.sealTexts ring).Gives session texts later ∧
      texts.OpenTo ring user ∧ later.tables = session.tables ∧ session.Drew 0 later :=
  ⟨_, _, sealTexts_draws session current, openTo_sealedTexts session current, rfl, rfl, rfl⟩

/-- What is read from the row of a user before anything is opened. -/
def StoredUser.ofUser
    (user : User)
    (texts : SealedTexts) :
    StoredUser :=
  { id := user.id
    org := user.org
    texts :=
      { displayName :=
          ⟨texts.displayName.ciphertext, texts.displayName.digest, user.keyVersion⟩
        publicKey := ⟨texts.publicKey.ciphertext, texts.publicKey.digest, user.keyVersion⟩
        email := ⟨texts.email.ciphertext, texts.email.digest, user.keyVersion⟩ }
    keyVersion := user.keyVersion
    password := user.password
    stamp := user.stamp }

/-- Loading a user opens what its row holds. -/
theorem Tables.user?_of_row?
    {tables : Tables}
    {user : User}
    {texts : SealedTexts}
    (ring : KeyRing)
    (stored : tables.row? .user user.id.uuid = some (UserRow.ofUser user texts)) :
    tables.user? ring user.id = some <$> (StoredUser.ofUser user texts).opened ring := by
  have read : tables.storedUser? user.id = .ok (some (.ofUser user texts)) :=
    mapM_eq_ok_some.mpr ⟨_, stored, rfl⟩
  rw [Tables.user?, read]
  rfl

theorem SealedTexts.OpenTo.opened
    {ring : KeyRing}
    {user : User}
    {texts : SealedTexts}
    (opens : texts.OpenTo ring user) :
    (StoredUser.ofUser user texts).opened ring = .ok user := by
  rw [StoredUser.opened, StoredUser.ofUser, opens.displayName, opens.publicKey, opens.email]
  rfl

/-- A user is loaded from a row whose texts open to its own. -/
theorem Tables.user?_ofUser
    {tables : Tables}
    {ring : KeyRing}
    {user : User}
    {texts : SealedTexts}
    (stored : tables.row? .user user.id.uuid = some (UserRow.ofUser user texts))
    (opens : texts.OpenTo ring user) :
    tables.user? ring user.id = .ok (some user) := by
  rw [user?_of_row? ring stored, opens.opened]
  rfl

/-- A user is not loaded with a ring that lacks the key of its version. -/
theorem Tables.user?_of_not_contains
    {tables : Tables}
    {ring : KeyRing}
    {user : User}
    {texts : SealedTexts}
    (stored : tables.row? .user user.id.uuid = some (UserRow.ofUser user texts))
    (lacks : ring.contains user.keyVersion = false) :
    tables.user? ring user.id = .error (.keyNotFound user.keyVersion) := by
  have absent : ring.keys.find? user.keyVersion = none :=
    Option.isNone_iff_eq_none.mp (Option.isSome_eq_false_iff.mp lacks)
  have missing : ring.get user.keyVersion = .error (.keyNotFound user.keyVersion) := by
    rw [KeyRing.get, absent]
  rw [user?_of_row? ring stored, StoredUser.opened, StoredUser.ofUser, SealedField.opened,
    missing]
  rfl

/-! ## Writing over a row -/

section

variable {expected : Signature}

/-- An organization is written over its row if its new row is apart from all others. -/
theorem Org.overwrite_succeeds
    (session : Session)
    (ring : KeyRing)
    (org : Org)
    (earlier later : List OrgRow)
    {old : OrgRow}
    (placed : session.tables.orgs = earlier ++ old :: later)
    (id : old.id = .holds org.id)
    (guarded : old.signature = .holds expected)
    (others : ∀ row ∈ earlier ++ later, row.id ≠ .holds org.id)
    (apart : Apart OrgRow.uniques (old.overwritten org) (earlier ++ later)) :
    (Versioned.overwrite ring org expected).Gives session true { session with
      tables := { session.tables with orgs := earlier ++ old.overwritten org :: later } } := by
  have updated := updateRows_selected
    (fun row : OrgRow => row.id = .holds org.id ∧ row.signature = .holds expected)
    (fun row => .ok (row.overwritten org))
    (by simp [id, guarded]) (fun row member => by simp [others row member]) rfl apart
  refine Work.gives_answer.mpr ⟨_, ?_, rfl⟩
  rw [Tables.updateOrg, placed]
  exact bind_eq_ok.mpr ⟨_, updated, rfl⟩

/-- A user is written over its row if its new row is apart from all others. -/
theorem User.overwrite_succeeds
    (session : Session)
    {ring : KeyRing}
    (user : User)
    (earlier later : List UserRow)
    {old : UserRow}
    (placed : session.tables.users = earlier ++ old :: later)
    (id : old.id = .holds user.id)
    (guarded : old.signature = .holds expected)
    (others : ∀ row ∈ earlier ++ later, row.id ≠ .holds user.id)
    (current : user.keyVersion = ring.current)
    (apart : ∀ texts : SealedTexts, texts.Digested user →
      Apart UserRow.uniques (old.overwritten user texts) (earlier ++ later)) :
    (Versioned.overwrite ring user expected).Gives session true { Work.afterSealing session with
      tables := { session.tables with
        users := earlier ++ old.overwritten user (user.sealedTexts ring session) :: later } } := by
  have encloses := sealTexts_draws session current
  have digested := (sealTexts_gives encloses).2.2.digested
  have updated := updateRows_selected
    (fun row : UserRow => row.id = .holds user.id ∧ row.signature = .holds expected)
    (fun row => .ok (row.overwritten user (user.sealedTexts ring session)))
    (by simp [id, guarded]) (fun row member => by simp [others row member]) rfl
    (apart _ digested)
  refine encloses.bind (Work.gives_answer.mpr ⟨_, ?_, rfl⟩)
  have sameTables : (Work.afterSealing session).tables = session.tables := rfl
  rw [sameTables, Tables.updateUser, placed]
  exact bind_eq_ok.mpr ⟨_, updated, rfl⟩

end

end SealedDirectory
