import SealedDirectory.Proofs.Directory.Change
import SealedDirectory.Proofs.Directory.Ending
import SealedDirectory.Proofs.Directory.Plain

/-!
# What a request does

An accepted request takes the tables through its deeds.  It shows its caller records
under the signatures that are then stored, and a record that it was to change was stored
under the signature that its caller expected.

The cases of creation are taken apart into insertions and the promotion of the owner;
all others are one change.
-/

namespace SealedDirectory

namespace Tables

variable {before after : Tables}

/-- A record is stored under the signature under which it was seen. -/
def Current (tables : Tables) (sight : Sight) : Prop :=
  ∃ row, tables.row? sight.kind sight.id = some row ∧
    sight.kind.signatureCell row = .holds sight.signature

/-- A row that its table accepts and whose signature is registered is inserted. -/
theorem Inserted.of_statements
    {sight : Sight} {row : sight.kind.Row} {rows : List sight.kind.Row} {time order : Int}
    (written : sight.kind.Written row)
    (id : sight.kind.idCell row = .holds ⟨sight.id⟩)
    (signature : sight.kind.signatureCell row = .holds sight.signature)
    (ordered : sight.kind.orderCell row = .holds order)
    (above : ∃ stored, before.highest .entity = .ok stored ∧ stored < order)
    (accepted :
      insertRow sight.kind.view.uniques row (before.rows sight.kind) = .ok rows)
    (registers :
      (sight.kind.view.restore before rows).register sight.signature sight.kind time =
        .ok after) :
    Inserted sight row before after := by
  rcases insertRow_eq_ok.mp accepted with ⟨apart, rfl⟩
  rcases register_eq_ok.mp registers with ⟨fresh, rfl⟩
  rw [registered_restore] at fresh
  have last : before.Numbered → ∀ kind, ∀ other ∈ before.rows kind,
      (kind.orderCell other).Precedes (sight.kind.orderCell row) := by
    intro numbered kind other member
    rcases above with ⟨stored, asked, below⟩
    rcases numbered.knows .entity with ⟨top, knows⟩
    rcases (numbered_iff.mp numbered).1 kind other member with ⟨number, holds⟩
    have known := (Covers.row member holds (Int.le_refl number)).le knows
    have same := knows.unique asked
    exact ⟨number, order, holds, ordered, by omega⟩
  exact { written, id, signature, apart, fresh, last, tables := ⟨time, rfl⟩ }

theorem Inserted.current
    {sight : Sight} {row : sight.kind.Row}
    (inserted : Inserted sight row before after) :
    after.Current sight :=
  ⟨row, inserted.row?_after, inserted.signature⟩

/-- The insertion that is read off the tables is the one that was done to them. -/
theorem insertion_eq
    {tables : Tables} {sight : Sight} {row : sight.kind.Row}
    (stored : tables.row? sight.kind sight.id = some row) :
    tables.insertion sight = .inserted sight (sight.kind.contents row) := by
  rw [insertion, contents?, stored]
  rfl

end Tables

open Tables

namespace Directory

variable {ring : KeyRing} {before after : Session}

/-- A new user is inserted as it was asked for, with its texts sealed under the current key. -/
theorem insertUser_gives
    {org : OrgId} {new : NewUser} {user : User}
    (given : (insertUser ring org new).Gives before user after) :
    ∃ texts : SealedTexts,
      Inserted user.sight (UserRow.ofUser user texts) before.tables after.tables ∧
        texts.SealedFor ring user ∧ PlainUser.ofUser user = .ofNew org new ring := by
  simp only [insertUser, User.insert, Work.gives_bind, Work.gives_freshId, Work.gives_execute,
    Work.gives_pure] at given
  obtain ⟨id, _, ⟨-, rfl⟩, stamp, stamped, stamps, -, _, ⟨texts, sealedSession, seals, tables, inserts,
    rfl⟩, -, _, ⟨final, registers, rfl⟩, rfl, rfl⟩ := given
  have stamped := initialStamp_gives stamps
  rcases User.sealTexts_gives seals with ⟨sealedTables, -, sealedFor⟩
  simp only [Tables.insertUser, bind_eq_ok] at inserts
  rcases inserts with ⟨rows, accepted, last⟩
  cases last
  rw [sealedTables, stamped.tables] at accepted registers
  refine ⟨texts, ?_, sealedFor, rfl⟩
  exact .of_statements ⟨_, texts, rfl⟩ rfl rfl rfl stamped.above accepted registers

/-- A new organization is inserted right after its owner. -/
theorem insertOrg_gives
    {name : String} {new : NewOrg} {created : CreatedOrg}
    (given : (insertOrg ring name new).Gives before created after) :
    ∃ (middle : Tables) (texts : SealedTexts),
      Inserted created.owner.sight (UserRow.ofUser created.owner texts) before.tables middle ∧
        Inserted created.org.sight (OrgRow.ofOrg created.org) middle after.tables ∧
        texts.SealedFor ring created.owner ∧
        PlainUser.ofUser created.owner = .ofNew created.org.id new.owner ring := by
  simp only [insertOrg, Work.gives_bind, Work.gives_freshId, Work.gives_execute,
    Work.gives_require, Work.gives_pure] at given
  obtain ⟨id, _, ⟨-, rfl⟩, owner, middle, inserts, stamp, stamped, stamps, -, _, ⟨-, rfl⟩,
    -, _, ⟨tables, insertsOrg, rfl⟩, -, _, ⟨final, registers, rfl⟩, rfl, rfl⟩ := given
  rcases insertUser_gives inserts with ⟨texts, inserted, sealedFor, plain⟩
  have stamped := initialStamp_gives stamps
  simp only [Tables.insertOrg, bind_eq_ok] at insertsOrg
  rcases insertsOrg with ⟨rows, accepted, last⟩
  cases last
  rw [stamped.tables] at accepted registers
  refine ⟨middle.tables, texts, inserted, ?_, sealedFor, plain⟩
  exact .of_statements ⟨_, rfl⟩ rfl rfl rfl stamped.above accepted registers

/-- The owner of a new organization is promoted by a change. -/
theorem promoteOwner_gives
    {inserted created : CreatedOrg}
    (given : (promoteOwner ring inserted).Gives before created after) :
    ∃ mutation : Mutation User,
      (Work.mutate ring inserted.owner.id inserted.owner.stamp.signature fun user : User =>
        return { user with stamp := { user.stamp with status := .active } }).Gives
          before mutation after ∧
      created = { inserted with owner := mutation.record } := by
  simp only [promoteOwner, Work.gives_bind, Work.gives_pure] at given
  rcases given with ⟨mutation, _, mutates, rfl, rfl⟩
  exact ⟨mutation, mutates, rfl⟩

/-- An organization and its owner are inserted first, and then the owner is promoted. -/
theorem createOrg_gives
    {new : NewOrg} {created : CreatedOrg}
    (given : (createOrg ring new).Gives before created after) :
    ∃ inserted middle final,
      (insertOrg ring (Text.trim new.name) new).Gives before inserted middle ∧
        (promoteOwner ring inserted).Gives middle created final ∧
        after = Work.commit final := by
  simp only [createOrg, Work.gives_bind, Work.gives_require, Work.gives_transaction] at given
  obtain ⟨-, _, ⟨-, rfl⟩, -, _, ⟨-, rfl⟩, final, ⟨inserted, middle, inserts, promotes⟩,
    rfl⟩ := given
  exact ⟨inserted, middle, final, inserts, promotes, rfl⟩

theorem createUser_gives
    {org : OrgId} {new : NewUser} {user : User}
    (given : (createUser ring org new).Gives before user after) :
    ∃ final, (insertUser ring org new).Gives before user final ∧ after = Work.commit final := by
  simp only [createUser, org?, Work.gives_bind, Work.gives_require, Work.gives_transaction,
    Work.gives_ask, Work.gives_ite, Work.gives_throw, false_and, exists_false, and_false,
    false_or] at given
  rcases given with ⟨-, _, ⟨-, rfl⟩, final, ⟨found, _, ⟨-, rfl⟩, -, inserts⟩, rfl⟩
  exact ⟨final, inserts, rfl⟩

theorem requireMember_gives
    {user : UserId} {org : OrgId} {value : Unit}
    (given : (requireMember user org).Gives before value after) :
    after = before := by
  simp only [requireMember, Work.gives_bind, Work.gives_ask] at given
  rcases given with ⟨found, _, ⟨-, rfl⟩, rest⟩
  cases found with
  | none => simp at rest
  | some org =>
      simp only [Work.gives_ite, Work.gives_throw, and_false, false_or, Work.gives_pure] at rest
      exact rest.2.2

end Directory

/-! ## Changes -/

/-- What a change does to the record that it was asked for. -/
structure Changes {R : Type} [Versioned R] (target : Sight) (mutation : Mutation R)
    (before after : Tables) : Prop where
  undergoes :
    Undergoes before (.changed target (Versioned.stamp mutation.record).signature) after
  expected : before.Current target
  shown : after.Current ⟨Versioned.kind R, (Versioned.id mutation.record).uuid,
    (Versioned.stamp mutation.record).signature⟩

theorem Work.mutate_changes
    {R : Type} [Versioned R] [Kept R]
    {ring : KeyRing} {id : Id (Versioned.idKind R)} {expected : Signature}
    {change : R → Work R} {mutation : Mutation R} {before after : Session}
    (looks : LooksAtRecord change)
    (sound : before.tables.Sound)
    (given : (mutate ring id expected change).Gives before mutation after) :
    Changes ⟨Versioned.kind R, id.uuid, expected⟩ mutation before.tables after.tables := by
  rcases mutate_gives looks sound given with ⟨old, new, mutates⟩
  have replaced := mutates.replaced
  refine ⟨.changed replaced, ⟨old, replaced.row?_before, replaced.guarded⟩, ?_⟩
  rw [mutates.sameId]
  exact ⟨new, replaced.row?_after, replaced.renewed⟩

namespace Directory

variable {ring : KeyRing} {before after : Session}

theorem changeOrg_gives
    {id : OrgId} {expected : Signature} {change : Org → Work Org} {mutation : Mutation Org}
    (looks : Work.LooksAtRecord change)
    (sound : before.tables.Sound)
    (given : (changeOrg ring id expected change).Gives before mutation after) :
    Changes ⟨.org, id.uuid, expected⟩ mutation before.tables after.tables := by
  rcases Work.gives_transaction.mp given with ⟨middle, changes, rfl⟩
  rw [Work.tables_commit]
  exact Work.mutate_changes looks sound changes

theorem changeUser_gives
    {id : UserId} {expected : Signature} {change : User → User} {mutation : Mutation User}
    (sound : before.tables.Sound)
    (given : (changeUser ring id expected change).Gives before mutation after) :
    Changes ⟨.user, id.uuid, expected⟩ mutation before.tables after.tables := by
  rcases Work.gives_transaction.mp given with ⟨middle, changes, rfl⟩
  rw [Work.tables_commit]
  exact Work.mutate_changes (Work.looksAtRecord_require _ _ change) sound changes

theorem setOwner_gives
    {id : OrgId} {expected : Signature} {owner : UserId} {mutation : Mutation Org}
    (sound : before.tables.Sound)
    (given : (setOwner ring id expected owner).Gives before mutation after) :
    Changes ⟨.org, id.uuid, expected⟩ mutation before.tables after.tables := by
  simp only [setOwner, Work.gives_transaction, Work.gives_bind] at given
  rcases given with ⟨_, ⟨_, middle, isMember, changes⟩, rfl⟩
  obtain rfl := requireMember_gives isMember
  rw [Work.tables_commit]
  exact Work.mutate_changes (Work.looksAtRecord_pure _) sound changes

end Directory

/-! ## Requests -/

structure Request.Outcome (ring : KeyRing) (request : Request) (before : Session)
    (response : Response) (after : Session) : Prop where
  /-- The tables go through the deeds of the request. -/
  evolves : Evolves before.tables (request.deedsOf ring before after response) after.tables
  /-- The caller is shown what is stored then. -/
  shown : ∀ sight ∈ response.sights, after.tables.Current sight
  /-- What was to be changed was stored as it was expected. -/
  expected : ∀ sight, request.target? = some sight → before.tables.Current sight

namespace Request

variable {ring : KeyRing} {request : Request} {before after : Session}

/-- The outcome of a request that is one change of a record. -/
theorem Outcome.of_change
    {R : Type} [Versioned R]
    {work : Work (Mutation R)}
    {answer : Mutation R → Response}
    {response : Response}
    {target : Sight}
    (given : (do return answer (← work)).Gives before response after)
    (aimed : request.target? = some target)
    (deeds : ∀ mutation, request.deedsOf ring before after (answer mutation) =
      [.changed target (Versioned.stamp mutation.record).signature])
    (sights : ∀ mutation, (answer mutation).sights =
      [⟨Versioned.kind R, (Versioned.id mutation.record).uuid,
        (Versioned.stamp mutation.record).signature⟩])
    (changes : ∀ mutation, work.Gives before mutation after →
      Changes target mutation before.tables after.tables) :
    request.Outcome ring before response after := by
  simp only [Work.gives_bind, Work.gives_pure] at given
  rcases given with ⟨mutation, _, worked, rfl, rfl⟩
  have changed := changes mutation worked
  constructor
  · rw [deeds]
    exact .of_undergoes changed.undergoes
  · intro sight member
    rw [sights, List.mem_singleton] at member
    rw [member]
    exact changed.shown
  · intro sight same
    rw [← Option.some.inj (aimed.symm.trans same)]
    exact changed.expected

theorem createUser_outcome
    {org : OrgId} {new : NewUser} {user : User}
    (given : (Directory.createUser ring org new).Gives before user after) :
    (createUser org new).Outcome ring before (.added user) after := by
  rcases Directory.createUser_gives given with ⟨final, inserts, rfl⟩
  rcases Directory.insertUser_gives inserts with ⟨texts, inserted, -, -⟩
  constructor
  · rw [deedsOf, Work.tables_commit, insertion_eq inserted.row?_after]
    exact .of_undergoes (.inserted inserted)
  · intro sight member
    rw [List.mem_singleton.mp member, Work.tables_commit]
    exact inserted.current
  · intro sight aimed
    cases aimed

theorem deedsOf_createOrg
    {new : NewOrg} {inserted created : CreatedOrg} {middle : Session}
    (inserts :
      (Directory.insertOrg ring (Text.trim new.name) new).Gives before inserted middle) :
    (createOrg new).deedsOf ring before after (.created created) =
      [middle.tables.insertion inserted.owner.sight,
       middle.tables.insertion inserted.org.sight,
       .changed inserted.owner.sight created.owner.stamp.signature] := by
  rw [Work.Gives] at inserts
  simp only [deedsOf, inserts]

theorem createOrg_outcome
    {new : NewOrg} {created : CreatedOrg}
    (sound : before.tables.Sound)
    (given : (Directory.createOrg ring new).Gives before created after) :
    (createOrg new).Outcome ring before (.created created) after := by
  rcases Directory.createOrg_gives given with ⟨inserted, middle, final, inserts, promotes, rfl⟩
  rcases Directory.insertOrg_gives inserts with ⟨ownerTables, texts, owner, org, -, -⟩
  have evolves := (Evolves.of_undergoes (.inserted owner)).append
    (.of_undergoes (.inserted org))
  rcases Directory.promoteOwner_gives promotes with ⟨promotion, mutates, rfl⟩
  have changes :=
    Work.mutate_changes (Work.looksAtRecord_pure _) (evolves.sound sound) mutates
  -- The organization is inserted between the owner's insertion and promotion.
  have ownerThere : middle.tables.row? .user inserted.owner.id.uuid = some (.ofUser inserted.owner texts) := by
    rw [(Undergoes.inserted org).row?_of_other rfl]
    exact owner.row?_after
  have orgThere : final.tables.row? .org inserted.org.id.uuid = some (.ofOrg inserted.org) := by
    rw [changes.undergoes.row?_of_other rfl]
    exact org.row?_after
  constructor
  · rw [deedsOf_createOrg inserts, insertion_eq ownerThere, insertion_eq org.row?_after]
    exact evolves.append (.of_undergoes changes.undergoes)
  · intro sight member
    simp only [Response.sights, List.mem_cons, List.not_mem_nil, or_false] at member
    rcases member with rfl | rfl
    · exact ⟨_, orgThere, org.signature⟩
    · exact changes.shown
  · intro sight aimed
    cases aimed

theorem outcome
    {response : Response}
    (sound : before.tables.Sound)
    (given : (request.perform ring).Gives before response after) :
    request.Outcome ring before response after := by
  cases request with
  | createOrg new =>
      simp only [perform, Work.gives_bind, Work.gives_pure] at given
      rcases given with ⟨created, _, creates, rfl, rfl⟩
      exact createOrg_outcome sound creates
  | createUser org new =>
      simp only [perform, Work.gives_bind, Work.gives_pure] at given
      rcases given with ⟨user, _, creates, rfl, rfl⟩
      exact createUser_outcome creates
  | setOrgStatus id expected status =>
      exact .of_change given rfl (fun _ => rfl) (fun _ => rfl) fun _ =>
        Directory.changeOrg_gives (Work.looksAtRecord_pure _) sound
  | setOwner id expected owner =>
      exact .of_change given rfl (fun _ => rfl) (fun _ => rfl) fun _ =>
        Directory.setOwner_gives sound
  | renameOrg id expected name =>
      exact .of_change given rfl (fun _ => rfl) (fun _ => rfl) fun _ =>
        Directory.changeOrg_gives (Work.looksAtRecord_require _ _ _) sound
  | setDisplayName id expected name =>
      exact .of_change given rfl (fun _ => rfl) (fun _ => rfl) fun _ =>
        Directory.changeUser_gives sound
  | setPublicKey id expected key =>
      exact .of_change given rfl (fun _ => rfl) (fun _ => rfl) fun _ =>
        Directory.changeUser_gives sound
  | setEmail id expected email =>
      exact .of_change given rfl (fun _ => rfl) (fun _ => rfl) fun _ =>
        Directory.changeUser_gives sound
  | setPassword id expected encoded =>
      exact .of_change given rfl (fun _ => rfl) (fun _ => rfl) fun _ =>
        Directory.changeUser_gives sound
  | setUserStatus id expected status =>
      exact .of_change given rfl (fun _ => rfl) (fun _ => rfl) fun _ =>
        Directory.changeUser_gives sound
  | rekey id expected =>
      exact .of_change given rfl (fun _ => rfl) (fun _ => rfl) fun _ =>
        Directory.changeUser_gives sound

end Request

end SealedDirectory
