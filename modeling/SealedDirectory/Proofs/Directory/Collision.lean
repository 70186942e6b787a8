import SealedDirectory.Proofs.Directory.Verdict

/-!
# Rows that collide

A table refuses a row that agrees with another one in columns that must be unique.  If what
is drawn is fresh, then the identifier, the signature and the place of a user agree with those
of no other user, so nothing is left to collide in but the digests of public keys and of
addresses among the members of one organization.  The public key is compared first.

This settles what comes of writing a user, be it inserted or written over its row, and it
carries over to the insertion and to the change of which the writing is a part.
-/

namespace SealedDirectory

open Tables

/-! ## What an operation comes to -/

namespace Work

variable
  {α β : Type}
  {work : Work α}
  {session : Session}

/-- What an operation comes to, the value that it gives left aside. -/
def outcome
    (work : Work α)
    (session : Session) :
    Except Fault Unit :=
  (work.runIn session).1.map fun _ => ()

theorem Gives.outcome_eq
    {value : α}
    {after : Session}
    (given : work.Gives session value after) :
    work.outcome session = .ok () := by
  rw [Gives] at given
  rw [outcome, given]
  rfl

theorem Fails.outcome_eq
    {fault : Fault}
    {after : Session}
    (fails : work.Fails session fault after) :
    work.outcome session = .error fault := by
  rw [Fails] at fails
  rw [outcome, fails]
  rfl

/-- A sequence fails with its first operation. -/
theorem Fails.bind
    {fault : Fault}
    {after : Session}
    (fails : work.Fails session fault after)
    (next : α → Work β) :
    (work >>= next).Fails session fault after := by
  rw [Fails] at fails ⊢
  rw [runIn_bind, fails]

/-- It fails with its second operation if the first one succeeds. -/
theorem Gives.bind_fails
    {next : α → Work β}
    {value : α}
    {fault : Fault}
    {middle after : Session}
    (given : work.Gives session value middle)
    (fails : (next value).Fails middle fault after) :
    (work >>= next).Fails session fault after := by
  rw [Gives] at given
  rw [Fails, runIn_bind, given]
  exact fails

/-- After a success the outcome is that of what follows. -/
theorem Gives.outcome_bind
    {next : α → Work β}
    {value : α}
    {middle : Session}
    (given : work.Gives session value middle) :
    (work >>= next).outcome session = (next value).outcome middle := by
  rw [Gives] at given
  rw [outcome, runIn_bind, given]
  rfl

theorem execute_fails
    {statement : Tables → Except Fault Tables}
    {fault : Fault}
    (refused : statement session.tables = .error fault) :
    (execute statement).Fails session fault session := by
  rw [Fails, execute, runIn_answer, refused]
  rfl

theorem outcome_answered
    (work : Work α)
    (answer : α → β)
    (session : Session) :
    Work.outcome (do return answer (← work)) session = work.outcome session := by
  rw [outcome, outcome, runIn_bind]
  rcases work.runIn session with ⟨fault | value, after⟩ <;> rfl

theorem outcome_transaction
    (work : Work α)
    (session : Session) :
    Work.outcome (transaction work) session = work.outcome session := by
  rw [outcome, outcome, runIn_transaction]
  rcases work.runIn session with ⟨fault | value, after⟩ <;> rfl

theorem outcome_guarded
    {ρ : Type}
    (check : Except ρ Unit)
    (fault : ρ → Fault)
    (work : Work α)
    (session : Session) :
    Work.outcome (do require check fault; work) session =
      check.mapError fault >>= fun _ => work.outcome session := by
  cases checked : check with
  | error rule => rfl
  | ok passes => rfl

end Work

/-! ## Digests that collide -/

/-- A column of digests that differ among the members of an organization. -/
inductive DigestColumn where
  | publicKey
  | email
  deriving DecidableEq

namespace DigestColumn

def name : DigestColumn → String
  | .publicKey => "users.public_key_digest"
  | .email => "users.email_digest"

def get : DigestColumn → UserRow → String
  | .publicKey, row => row.publicKeyDigest
  | .email, row => row.emailDigest

/-- The fault of a digest that another member has already. -/
def taken (column : DigestColumn) : Fault :=
  .taken ["users.org", column.name]

end DigestColumn

/-- The rows of the members of an organization. -/
def Tables.membersOf
    (tables : Tables)
    (org : OrgId) :
    List UserRow :=
  tables.users.filter fun row => row.org = .holds org

/-- The first of several digests that one of the members has. -/
def collision?
    (members : List UserRow)
    (digests : List (DigestColumn × String)) :
    Option DigestColumn :=
  (digests.find? fun digest => members.any fun row => digest.1.get row == digest.2).map Prod.fst

/-- What writing digests comes to beside the members of an organization. -/
def unlessTaken
    (members : List UserRow)
    (digests : List (DigestColumn × String)) :
    Except Fault Unit :=
  match collision? members digests with
  | some column => .error column.taken
  | none => .ok ()

/-- The digests of texts that must differ from those of the other members. -/
def memberDigests (publicKey email : String) : List (DigestColumn × String) :=
  [(.publicKey, fingerprint publicKey), (.email, fingerprint email)]

/-- A user agrees with others in nothing that must be unique, the digests left aside. -/
structure UserRow.Distinct
    (row : UserRow)
    (others : List UserRow) :
    Prop where
  signature : ∀ other ∈ others, row.signature.clashes other.signature = false
  order : ∀ other ∈ others, row.order.clashes other.order = false
  id : ∀ other ∈ others, row.id.clashes other.id = false

/-- A user that is distinct from others breaks a rule only by its digests. -/
theorem UserRow.Distinct.brokenUnique?_eq
    {row : UserRow}
    {others : List UserRow}
    {org : OrgId}
    {publicKey email : String}
    (distinct : row.Distinct others)
    (belongs : row.org = .holds org)
    (publicKeyDigest : row.publicKeyDigest = fingerprint publicKey)
    (emailDigest : row.emailDigest = fingerprint email) :
    brokenUnique? UserRow.uniques row others =
      (collision? (others.filter fun other => other.org = .holds org)
        (memberDigests publicKey email)).map fun column => ["users.org", column.name] := by
  have members (digest : UserRow → String) :
      (others.any fun other => row.org.clashes other.org && digest row = digest other) =
        (others.filter fun other => other.org = .holds org).any fun other =>
          digest other == digest row := by
    rw [List.any_filter, belongs]
    congr 1
    funext other
    rw [Bool.eq_iff_iff]
    simp only [Cell.clashes, Bool.and_eq_true, decide_eq_true_eq, beq_iff_eq, ne_eq,
      reduceCtorEq, not_false_eq_true, and_true]
    exact and_congr eq_comm eq_comm
  have signature : (others.any fun other => row.signature.clashes other.signature) = false := by
    simpa using distinct.signature
  have order : (others.any fun other => row.order.clashes other.order) = false := by
    simpa using distinct.order
  have id : (others.any fun other => row.id.clashes other.id) = false := by
    simpa using distinct.id
  rw [memberDigests, ← publicKeyDigest, ← emailDigest]
  simp only [brokenUnique?, collision?, UserRow.uniques, List.find?_cons, List.find?_nil,
    DigestColumn.get, signature, order, id, members UserRow.publicKeyDigest,
    members UserRow.emailDigest]
  split
  · rfl
  · split <;> rfl

/-! ## Writing over a row -/

section

variable
  {tables : Tables}
  {earlier later : List UserRow}
  {old new : UserRow}
  {signature : Signature}

/-- A stored user stays distinct from all others under a fresh signature. -/
theorem Tables.Unambiguous.distinct_renewed
    (unambiguous : tables.Unambiguous)
    (sound : tables.Sound)
    (placed : tables.users = earlier ++ old :: later)
    (sameId : new.id = old.id)
    (sameOrder : new.order = old.order)
    (renewed : new.signature = .holds signature)
    (fresh : ¬ tables.Registered signature) :
    new.Distinct (earlier ++ later) := by
  have apart : Apart UserRow.uniques { old with signature := .holds signature }
      (earlier ++ later) :=
    unambiguous.apart_renewed sound placed rfl rfl rfl rfl rfl rfl fresh
  constructor
  · rw [renewed]
    exact apart _ (List.mem_of_getElem? (i := 2) rfl)
  · rw [sameOrder]
    exact apart _ (List.mem_of_getElem? (i := 3) rfl)
  · rw [sameId]
    exact apart _ (List.mem_of_getElem? (i := 4) rfl)

/-- The other members of an organization are those that stand around a member. -/
theorem Tables.Sound.others_eq
    {user : User}
    {texts : SealedTexts}
    (sound : tables.Sound)
    (placed : tables.users = earlier ++ UserRow.ofUser user texts :: later)
    (org : OrgId) :
    ((tables.membersOf org).filter fun row => row.id ≠ .holds user.id) =
      (earlier ++ later).filter fun row => row.org = .holds org := by
  have others : ∀ row ∈ earlier ++ later, row.id ≠ .holds user.id :=
    sound.others_ne .user placed rfl
  have around : (tables.users.filter fun row => row.id ≠ .holds user.id) = earlier ++ later := by
    rw [placed, List.filter_append, List.filter_cons_of_neg (by simp [UserRow.ofUser]),
      ← List.filter_append, List.filter_eq_self]
    exact fun row member => decide_eq_true (others row member)
  rw [membersOf, List.filter_comm, around]

/-- A user that is written over its row breaks a rule among the others by its digests only. -/
theorem Tables.Regular.brokenUnique?_overwritten
    {stored user : User}
    {texts sealedTexts : SealedTexts}
    (regular : tables.Regular)
    (placed : tables.users = earlier ++ UserRow.ofUser stored texts :: later)
    (renewed : user.stamp.signature = signature)
    (fresh : ¬ tables.Registered signature)
    (digested : sealedTexts.Digested user) :
    brokenUnique? UserRow.uniques ((UserRow.ofUser stored texts).overwritten user sealedTexts)
        (earlier ++ later) =
      (collision? ((tables.membersOf stored.org).filter fun row => row.id ≠ .holds stored.id)
        (memberDigests user.publicKey user.email)).map
          fun column => ["users.org", column.name] := by
  have distinct : ((UserRow.ofUser stored texts).overwritten user sealedTexts).Distinct
      (earlier ++ later) :=
    regular.unambiguous.distinct_renewed regular.sound placed rfl rfl
      (congrArg Cell.holds renewed) fresh
  rw [regular.sound.others_eq placed]
  exact distinct.brokenUnique?_eq rfl digested.publicKey digested.email

end

/-- A user is not written over its row if its new row breaks a rule among the others. -/
theorem User.overwrite_collides
    {ring : KeyRing}
    {expected : Signature}
    (session : Session)
    (user : User)
    (earlier later : List UserRow)
    {old : UserRow}
    {columns : List String}
    (placed : session.tables.users = earlier ++ old :: later)
    (id : old.id = .holds user.id)
    (guarded : old.signature = .holds expected)
    (others : ∀ row ∈ earlier ++ later, row.id ≠ .holds user.id)
    (current : user.keyVersion = ring.current)
    (broken : brokenUnique? UserRow.uniques
      (old.overwritten user (user.sealedTexts ring session)) (earlier ++ later) = some columns) :
    (Versioned.overwrite ring user expected).Fails session (.taken columns)
      (Work.afterSealing session) := by
  have updated := updateRows_broken
    (fun row : UserRow => row.id = .holds user.id ∧ row.signature = .holds expected)
    (fun row => .ok (row.overwritten user (user.sealedTexts ring session)))
    (by simp [id, guarded]) (fun row member => by simp [others row member]) rfl broken
  refine (sealTexts_draws session current).bind_fails ?_
  have refused : (Work.afterSealing session).tables.updateUser user
      (user.sealedTexts ring session) expected = .error (.taken columns) := by
    have sameTables : (Work.afterSealing session).tables = session.tables := rfl
    rw [sameTables, Tables.updateUser, placed]
    exact congrArg (· >>= _) updated
  rw [Work.Fails, Work.runIn_answer, refused]

/-- A change fails if its record cannot be written. -/
theorem Work.mutate_fails_of_overwrite
    {R : Type}
    [Versioned R]
    {ring : KeyRing}
    {id : Id (Versioned.idKind R)}
    {change : R → Work R}
    {loaded changed : R}
    {fault : Fault}
    {session written : Session}
    (found : Versioned.find session.tables ring id = .ok (some loaded))
    (changes : (change loaded).Gives session changed session)
    (refused : (Versioned.overwrite ring (renewal ring session loaded changed)
      (Versioned.stamp loaded).signature).Fails (afterUuid (afterClock session)) fault written) :
    (mutate ring id (Versioned.stamp loaded).signature change).Fails session fault written := by
  have loads : (load ring id : Work R).Gives session loaded session := gives_load.mpr ⟨found, rfl⟩
  have restamps : (restamped loaded (Versioned.prepared ring changed)).Gives session
      (renewal ring session loaded changed) (afterUuid (afterClock session)) :=
    rfl
  rw [mutate]
  refine loads.bind_fails ?_
  rw [if_neg (by simp)]
  exact changes.bind_fails (restamps.bind_fails (refused.bind _))

/-- A change of a user collides with another member, or it is not admitted, or it succeeds. -/
theorem Work.outcome_mutateUser
    {ring : KeyRing}
    {id : UserId}
    {expected : Signature}
    {change : User → Work User}
    {edit : User → Except Fault User}
    {session : Session}
    (edits : Edits change edit)
    (sameId : ∀ loaded changed, edit loaded = .ok changed → changed.id = loaded.id)
    (regular : session.tables.Regular)
    (fresh : ¬ session.tables.Registered ⟨session.uuidAhead 0⟩) :
    (mutate ring id expected change).outcome session =
      admitted edit ring id expected session.tables >>= fun (loaded, changed) =>
        unlessTaken ((session.tables.membersOf loaded.org).filter fun row => row.id ≠ .holds id)
          (memberDigests changed.publicKey changed.email) := by
  cases allowed : admitted edit ring id expected session.tables with
  | error fault => exact (mutate_refused edits allowed).outcome_eq
  | ok pair =>
      rcases pair with ⟨loaded, changed⟩
      rcases admitted_eq_ok allowed with ⟨found, rfl, edited⟩
      have sound := regular.sound
      rcases user?_eq_some (sound.written .user) found with ⟨_, stored, texts, rfl, -⟩
      have holds := (sound.row?_eq_some_iff.mp stored).2
      obtain rfl : loaded.id = id := Cell.holds.inj holds
      rcases List.append_of_mem (sound.row?_eq_some_iff.mp stored).1 with
        ⟨earlier, later, placed⟩
      let record := renewal ring session loaded changed
      let started := afterUuid (afterClock session)
      have recordId : record.id = loaded.id := sameId loaded changed edited
      have others : ∀ row ∈ earlier ++ later, row.id ≠ .holds record.id := by
        rw [recordId]
        exact sound.others_ne .user placed rfl
      have broken (sealedTexts : SealedTexts) (digested : sealedTexts.Digested record) :
          brokenUnique? UserRow.uniques
              ((UserRow.ofUser loaded texts).overwritten record sealedTexts) (earlier ++ later) =
            (collision? ((session.tables.membersOf loaded.org).filter
                fun row => row.id ≠ .holds loaded.id)
              (memberDigests changed.publicKey changed.email)).map
                fun column => ["users.org", column.name] :=
        regular.brokenUnique?_overwritten placed rfl fresh digested
      have changes : (change loaded).Gives session changed session := by
        rw [Gives, edits, edited]
      have encloses : (record.sealTexts ring).Gives started _ _ := record.sealTexts_draws started rfl
      have digested := (User.sealTexts_gives encloses).2.2.digested
      dsimp only [bind, Except.bind, unlessTaken]
      split
      · next column collides =>
          rw [collides] at broken
          have refused := User.overwrite_collides started record earlier later placed
            (congrArg Cell.holds recordId.symm) rfl others rfl (broken _ digested)
          exact (mutate_fails_of_overwrite found changes refused).outcome_eq
      · next free =>
          rw [free] at broken
          have written := User.overwrite_succeeds started record earlier later placed
            (congrArg Cell.holds recordId.symm) rfl others rfl fun sealedTexts digested =>
              brokenUnique?_eq_none.mp (broken sealedTexts digested)
          have unnoted (columns : List String) : session.tables.Unnoted
              (Versioned.stamp loaded).signature ⟨session.uuidAhead 0⟩ columns := by
            rcases regular.traced with ⟨entries, traced⟩
            exact traced.unnoted (sound.row?_eq_some_iff.mp stored).1 rfl fresh columns
          obtain ⟨mutation, after, given, -⟩ :=
            mutate_succeeds sound found changes written ⟨rfl, rfl⟩ fresh unnoted
          exact given.outcome_eq

/-! ## Inserting a user -/

/-- A user with a new identifier, a fresh signature and the next place is distinct from all. -/
theorem UserRow.distinct_of_new
    {tables : Tables}
    {row : UserRow}
    {id : UserId}
    {signature : Signature}
    {order : Int}
    (sound : tables.Sound)
    (rowId : row.id = .holds id)
    (newId : tables.row? .user id.uuid = none)
    (rowSignature : row.signature = .holds signature)
    (fresh : ¬ tables.Registered signature)
    (rowOrder : row.order = .holds order)
    (above : ∃ stored, tables.highest .entity = .ok stored ∧ stored < order) :
    row.Distinct tables.users where
  signature := by
    intro other member
    rw [rowSignature]
    exact sound.clashes_fresh .user member fresh
  order := by
    intro other member
    rw [rowOrder, Cell.clashes_eq_false]
    intro same
    rcases above with ⟨stored, asked, below⟩
    rcases sound.numbered.knows .entity with ⟨top, knows⟩
    obtain rfl := knows.unique asked
    have bound := knows.above (tables.users.map UserRow.order)
      (by simp [Tables.usedNumbers]) order (List.mem_map.mpr ⟨other, member, same⟩)
    omega
  id := by
    intro other member
    rw [rowId, Cell.clashes_eq_false]
    intro same
    exact List.find?_eq_none.mp newId other member (decide_eq_true same)

/-- A user that is distinct from all is inserted unless a member has one of its digests. -/
theorem Tables.insertUser_distinct
    {tables : Tables}
    {user : User}
    {texts : SealedTexts}
    (distinct : (UserRow.ofUser user texts).Distinct tables.users)
    (digested : texts.Digested user) :
    tables.insertUser (.ofUser user texts) =
      (unlessTaken (tables.membersOf user.org) (memberDigests user.publicKey user.email)).map
        fun _ => RecordKind.user.view.restore tables
          (tables.users ++ [UserRow.ofUser user texts]) := by
  have broken := distinct.brokenUnique?_eq rfl digested.publicKey digested.email
  rw [insertUser, insertRow, broken, unlessTaken, membersOf]
  cases collision? _ _ <;> rfl

namespace Directory

variable {session : Session}

/-- A new user collides with a member of its organization, or else it is inserted. -/
theorem outcome_insertUser
    (ring : KeyRing)
    (org : OrgId)
    (new : NewUser)
    (sound : session.tables.Sound)
    (newId : session.tables.row? .user (session.uuidAhead 0) = none)
    (fresh : ¬ session.tables.Registered ⟨session.uuidAhead 1⟩) :
    (insertUser ring org new).outcome session =
      unlessTaken (session.tables.membersOf org) (memberDigests new.publicKey new.email) := by
  have begun : Session.Drew 1 session (Work.afterUuid session) := ⟨rfl, rfl⟩
  have numbered : (Work.afterUuid session).tables.Numbered := sound.numbered
  obtain ⟨stamp, stamped, stamps, signature, sameTables, -⟩ :=
    initialStamp_succeeds numbered .unconfirmed new.role
  rw [begun.uuidAhead_eq] at signature
  rw [← signature] at fresh
  let user : User :=
    { id := ⟨session.uuidAhead 0⟩
      org
      displayName := new.displayName
      publicKey := new.publicKey
      email := new.email
      keyVersion := ring.current
      password := new.password
      stamp }
  have encloses := user.sealTexts_draws stamped rfl
  have digested := (User.sealTexts_gives encloses).2.2.digested
  generalize user.sealedTexts ring stamped = texts at encloses digested
  have distinct : (UserRow.ofUser user texts).Distinct session.tables.users :=
    UserRow.distinct_of_new sound rfl newId rfl fresh rfl (initialStamp_gives stamps).above
  have tables : (Work.afterSealing stamped).tables = session.tables := sameTables
  have inserted := Tables.insertUser_distinct distinct digested
  rw [insertUser, (Work.freshId_succeeds session .user).outcome_bind, stamps.outcome_bind]
  cases judged : unlessTaken (session.tables.membersOf org)
      (memberDigests new.publicKey new.email) with
  | error fault =>
      rw [judged] at inserted
      have fails : (user.insert ring).Fails stamped fault (Work.afterSealing stamped) :=
        encloses.bind_fails (Work.execute_fails (tables ▸ inserted))
      exact (fails.bind _).outcome_eq
  | ok free =>
      rw [judged] at inserted
      let rows := RecordKind.user.view.restore session.tables
        (session.tables.users ++ [UserRow.ofUser user texts])
      have inserts : (user.insert ring).Gives stamped ()
          { Work.afterSealing stamped with tables := rows } :=
        encloses.bind (Work.execute_succeeds (tables ▸ inserted))
      have registers : (Work.execute fun tables : Tables =>
          tables.register stamp.signature .user stamp.created).Gives
            { Work.afterSealing stamped with tables := rows } ()
            { Work.afterSealing stamped with
              tables := rows.registering stamp.signature .user stamp.created } :=
        Work.execute_succeeds (Tables.register_restore .user _ .user stamp.created fresh)
      exact (inserts.bind (registers.bind (Work.pure_succeeds _ user))).outcome_eq

end Directory

end SealedDirectory
