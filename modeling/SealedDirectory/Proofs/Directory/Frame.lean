import SealedDirectory.Proofs.Directory.Founding
import SealedDirectory.Proofs.Directory.Rewriting

/-!
# What a request leaves alone

Entries of the trail and registered signatures are only ever added, and an accepted request
touches neither the marks of the sequences nor the remarks.  A creation adds rows behind
all others.  A change rewrites one row in its place: the column that it is about, the
signature and the time of the change, and for a user also the version of the key with the
three ciphertexts.

Every change of a user seals all private texts anew.  That the texts a change is not about
stay what they were is said of the texts that are read before and after, and of their
digests.  Which column a request is about is written down here for rows and for users.

The marks are raised by requests that fail; this is not told here.
-/

namespace SealedDirectory

open Tables

/-! ## What is only added to -/

/-- Entries and signatures are only added, and neither marks nor remarks change. -/
structure Tables.Extends (before after : Tables) : Prop where
  trail : before.trail <+: after.trail
  registry : before.registry <+: after.registry
  marks : after.marks = before.marks
  notes : after.notes = before.notes

namespace Tables

variable {before middle after : Tables}

theorem Extends.trans
    (first : Extends before middle)
    (second : Extends middle after) :
    Extends before after where
  trail := first.trail.trans second.trail
  registry := first.registry.trans second.registry
  marks := second.marks.trans first.marks
  notes := second.notes.trans first.notes

theorem extends_restore
    (tables : Tables)
    (kind : RecordKind)
    (rows : List kind.Row) :
    Extends tables (kind.view.restore tables rows) := by
  cases kind <;> exact ⟨List.prefix_rfl, List.prefix_rfl, rfl, rfl⟩

theorem extends_registering
    (tables : Tables)
    (signature : Signature)
    (kind : RecordKind)
    (time : Int) :
    Extends tables (tables.registering signature kind time) :=
  ⟨List.prefix_rfl, List.prefix_append _ _, rfl, rfl⟩

theorem extends_noting
    (tables : Tables)
    (entries : List Entry) :
    Extends tables (tables.noting entries) :=
  ⟨List.prefix_append _ _, List.prefix_rfl, rfl, rfl⟩

/-- A deed adds to the trail and to the registry. -/
theorem Undergoes.extends
    {deed : Deed}
    (does : Undergoes before deed after) :
    Extends before after := by
  cases does with
  | inserted inserted =>
      rcases inserted.tables with ⟨time, rfl⟩
      exact (extends_restore _ _ _).trans (extends_registering _ _ _ _)
  | changed replaced =>
      rcases replaced.tables with ⟨middle, time, ⟨⟨earlier, later, -, rfl, -⟩⟩, rfl⟩
      exact ((extends_restore _ _ _).trans (extends_registering _ _ _ _)).trans
        (extends_noting _ _)

end Tables

/-! ## What a request is about -/

namespace Request

/-- An organization with the field that a request is about. -/
def editedOrg (request : Request) (org : Org) : Org :=
  match request with
  | .setOrgStatus _ _ status => { org with stamp := { org.stamp with status } }
  | .setOwner _ _ owner => { org with owner }
  | .renameOrg _ _ name => { org with name := Text.trim name }
  | _ => org

/-- The row of an organization with the column that a request is about. -/
def editedOrgRow (request : Request) (row : OrgRow) : OrgRow :=
  match request with
  | .setOrgStatus _ _ status => { row with status }
  | .setOwner _ _ owner => { row with owner := .holds owner }
  | .renameOrg _ _ name => { row with name := Text.trim name }
  | _ => row

/-- The row of a user with the digest or the column that a request is about. -/
def editedUserRow (request : Request) (row : UserRow) : UserRow :=
  match request with
  | .setDisplayName _ _ name => { row with displayNameDigest := fingerprint (Text.trim name) }
  | .setPublicKey _ _ key => { row with publicKeyDigest := fingerprint (Text.trim key) }
  | .setEmail _ _ email => { row with emailDigest := fingerprint (Text.trim email) }
  | .setPassword _ _ encoded => { row with password := encoded }
  | .setUserStatus _ _ status => { row with status }
  | _ => row

/-- A user in plain text with the field that a request is about. -/
def editedUser (request : Request) (user : User) : User :=
  match request with
  | .setDisplayName _ _ name => { user with displayName := Text.trim name }
  | .setPublicKey _ _ key => { user with publicKey := Text.trim key }
  | .setEmail _ _ email => { user with email := Text.trim email }
  | .setPassword _ _ encoded => { user with password := encoded }
  | .setUserStatus _ _ status => { user with stamp := { user.stamp with status } }
  | _ => user

end Request

/-- The columns that a record keeps for good. -/
def lastingColumns : List String :=
  ["id", "org", "ctime", "insert_order", "role", "schema_version"]

/-- A row keeps the columns that last. -/
def RecordKind.Lasts (kind : RecordKind) (old new : kind.Row) : Prop :=
  ∀ column ∈ lastingColumns,
    (kind.contents new).value column = (kind.contents old).value column

/-- One organization was edited in its place by a request, and nothing else but that. -/
structure EditedOrg
    (request : Request)
    (id : OrgId)
    (earlier later : List OrgRow)
    (old new : OrgRow)
    (before after : Tables) :
    Prop where
  orgs : before.orgs = earlier ++ old :: later
  orgsAfter : after.orgs = earlier ++ new :: later
  users : after.users = before.users
  ofId : old.id = .holds id
  lasts : RecordKind.org.Lasts old new
  edited : ∃ time signature, new =
    { request.editedOrgRow old with changed := .holds time, signature := .holds signature }
  read : ∃ org time signature, before.org? id = .ok (some org) ∧
    after.org? id = .ok (some { request.editedOrg org with
      stamp := { (request.editedOrg org).stamp with changed := time, signature } })

/-- One user was edited in its place by a request, and nothing else but that. -/
structure EditedUser
    (ring : KeyRing)
    (request : Request)
    (id : UserId)
    (earlier later : List UserRow)
    (old new : UserRow)
    (before after : Tables) :
    Prop where
  users : before.users = earlier ++ old :: later
  usersAfter : after.users = earlier ++ new :: later
  orgs : after.orgs = before.orgs
  ofId : old.id = .holds id
  lasts : RecordKind.user.Lasts old new
  edited : ∃ displayName publicKey email time signature, new =
    { request.editedUserRow old with
      displayName, publicKey, email
      keyVersion := .holds ring.current
      changed := .holds time
      signature := .holds signature }
  /-- In plain text the user is the edited one, under the current version. -/
  read : ∃ user time signature, before.user? ring id = .ok (some user) ∧
    after.user? ring id = .ok (some { request.editedUser user with
      keyVersion := ring.current
      stamp := { (request.editedUser user).stamp with changed := time, signature } })

/-- What an accepted request did to the tables, and what it left alone. -/
structure Request.Framed
    (ring : KeyRing)
    (request : Request)
    (before after : Tables) :
    Prop where
  extended : Extends before after
  /-- A creation only adds rows. -/
  creates : request.target? = none → ∀ kind, before.rows kind <+: after.rows kind
  changesOrg : ∀ (id : OrgId) expected, request.target? = some ⟨.org, id.uuid, expected⟩ →
    ∃ earlier later old new, EditedOrg request id earlier later old new before after
  changesUser : ∀ (id : UserId) expected, request.target? = some ⟨.user, id.uuid, expected⟩ →
    ∃ earlier later old new, EditedUser ring request id earlier later old new before after

/-! ## One change -/

section

variable
  {ring : KeyRing}
  {expected : Signature}
  {before after : Session}

/-- The organization that is written when a loaded one was changed. -/
def Org.renewed (loaded changed : Org) (time : Int) (signature : Signature) : Org :=
  loaded.overwritten
    { changed with stamp := .renewed loaded.stamp changed.stamp time signature }

/-- The user that is written when a loaded one was changed. -/
def User.renewed
    (ring : KeyRing)
    (loaded changed : User)
    (time : Int)
    (signature : Signature) :
    User :=
  loaded.overwritten
    { changed with
      keyVersion := ring.current
      stamp := .renewed loaded.stamp changed.stamp time signature }

/-- A change of an organization puts the renewed one in the place of the loaded one. -/
theorem Work.mutateOrg_renews
    {id : OrgId}
    {change : Org → Work Org}
    {mutation : Mutation Org}
    (looks : LooksAtRecord change)
    (sound : before.tables.Sound)
    (given : (mutate ring id expected change).Gives before mutation after) :
    ∃ loaded changed time signature earlier later,
      (change loaded).Gives before changed before ∧ loaded.id = id ∧
        before.tables.orgs = earlier ++ OrgRow.ofOrg loaded :: later ∧
        after.tables.orgs =
          earlier ++ .ofOrg (loaded.renewed changed time signature) :: later ∧
        after.tables.users = before.tables.users := by
  rcases mutate_steps looks given with ⟨loaded, changed, written, registered, steps⟩
  rcases mutate_gives looks sound given with ⟨old, new, mutates⟩
  have stored := org?_eq_some (sound.written .org) steps.found
  have replaced := mutates.replaced
  obtain rfl : OrgRow.ofOrg loaded = old :=
    Option.some.inj (stored.symm.trans replaced.row?_before)
  rcases replaced.rows_eq with ⟨earlier, later, placedOld, placedNew, -⟩
  rw [mutates.orgOverwritten, steps.record] at placedNew
  have other : RecordKind.user ≠ .org := by decide
  exact ⟨loaded, changed, _, _, earlier, later, steps.changes, Cell.holds.inj replaced.id,
    placedOld, placedNew, replaced.rows_of_ne other⟩

/-- A change of a user puts the renewed one, sealed anew, in the place of the loaded one. -/
theorem Work.mutateUser_renews
    {id : UserId}
    {change : User → Work User}
    {mutation : Mutation User}
    (looks : LooksAtRecord change)
    (sound : before.tables.Sound)
    (given : (mutate ring id expected change).Gives before mutation after) :
    ∃ loaded changed oldTexts texts time signature earlier later,
      (change loaded).Gives before changed before ∧
        before.tables.user? ring id = .ok (some loaded) ∧ loaded.id = id ∧
        SealedTexts.Digested oldTexts loaded ∧
        SealedTexts.SealedFor texts ring (loaded.renewed ring changed time signature) ∧
        before.tables.users = earlier ++ UserRow.ofUser loaded oldTexts :: later ∧
        after.tables.users =
          earlier ++ .ofUser (loaded.renewed ring changed time signature) texts :: later ∧
        after.tables.orgs = before.tables.orgs := by
  rcases mutate_steps looks given with ⟨loaded, changed, written, registered, steps⟩
  rcases mutate_gives looks sound given with ⟨old, new, mutates⟩
  have found : before.tables.user? ring id = .ok (some loaded) := steps.found
  rcases user?_eq_some (sound.written .user) found with ⟨row, stored, oldTexts, rfl, digested⟩
  obtain ⟨_, earlier, later, texts, placed, placedOld, placedNew, sealedFor⟩ :=
    mutates.users_eq
  obtain rfl := Option.some.inj (stored.symm.trans placed)
  have holds : (UserRow.ofUser loaded oldTexts).id = .holds id :=
    (sound.row?_eq_some_iff.mp stored).2
  rw [steps.record] at placedNew sealedFor
  have other : RecordKind.org ≠ .user := by decide
  exact ⟨loaded, changed, oldTexts, texts, _, _, earlier, later, steps.changes, found,
    Cell.holds.inj holds, digested, sealedFor.overwritten loaded, placedOld, placedNew,
    mutates.replaced.rows_of_ne other⟩

end

/-! ## What the edited rows keep -/

theorem OrgRow.lasts_of_cells
    {old new : OrgRow}
    (id : new.id = old.id)
    (created : new.created = old.created)
    (order : new.order = old.order)
    (role : new.role = old.role)
    (layout : new.layout = old.layout) :
    RecordKind.org.Lasts old new := by
  intro column member
  simp only [lastingColumns, List.mem_cons, List.not_mem_nil, or_false] at member
  rcases member with rfl | rfl | rfl | rfl | rfl | rfl
  · exact congrArg Cell.content id
  · rfl
  · exact congrArg Cell.content created
  · exact congrArg Cell.content order
  · exact congrArg (fun role : Role => Content.integer role.code) role
  · exact congrArg Cell.content layout

theorem UserRow.lasts_of_cells
    {old new : UserRow}
    (id : new.id = old.id)
    (org : new.org = old.org)
    (created : new.created = old.created)
    (order : new.order = old.order)
    (role : new.role = old.role)
    (layout : new.layout = old.layout) :
    RecordKind.user.Lasts old new := by
  intro column member
  simp only [lastingColumns, List.mem_cons, List.not_mem_nil, or_false] at member
  rcases member with rfl | rfl | rfl | rfl | rfl | rfl
  · exact congrArg Cell.content id
  · exact congrArg Cell.content org
  · exact congrArg Cell.content created
  · exact congrArg Cell.content order
  · exact congrArg (fun role : Role => Content.integer role.code) role
  · exact congrArg Cell.content layout

namespace Request

/-- An edited organization keeps the columns that last. -/
theorem lasts_editedOrgRow
    (request : Request)
    (old : OrgRow)
    (changed : Cell Int)
    (signature : Cell Signature) :
    RecordKind.org.Lasts old { request.editedOrgRow old with changed, signature } := by
  cases request <;> exact OrgRow.lasts_of_cells rfl rfl rfl rfl rfl

/-- An edited user keeps the columns that last. -/
theorem lasts_editedUserRow
    (request : Request)
    (old : UserRow)
    (displayName publicKey email : String)
    (keyVersion : Cell KeyVersion)
    (changed : Cell Int)
    (signature : Cell Signature) :
    RecordKind.user.Lasts old
      { request.editedUserRow old with
        displayName, publicKey, email, keyVersion, changed, signature } := by
  cases request <;> exact UserRow.lasts_of_cells rfl rfl rfl rfl rfl rfl

/-! ## What the edited records are -/

theorem renewed_editedOrg
    (request : Request)
    (org : Org)
    (time : Int)
    (signature : Signature) :
    org.renewed (request.editedOrg org) time signature =
      { request.editedOrg org with
        stamp := { (request.editedOrg org).stamp with
          changed := max time org.stamp.changed, signature } } := by
  cases request <;> rfl

theorem ofOrg_renewed_editedOrg
    (request : Request)
    (org : Org)
    (time : Int)
    (signature : Signature) :
    OrgRow.ofOrg (org.renewed (request.editedOrg org) time signature) =
      { request.editedOrgRow (.ofOrg org) with
        changed := .holds (max time org.stamp.changed)
        signature := .holds signature } := by
  cases request <;> rfl

theorem renewed_editedUser
    (request : Request)
    (ring : KeyRing)
    (user : User)
    (time : Int)
    (signature : Signature) :
    user.renewed ring (request.editedUser user) time signature =
      { request.editedUser user with
        keyVersion := ring.current
        stamp := { (request.editedUser user).stamp with
          changed := max time user.stamp.changed, signature } } := by
  cases request <;> rfl

/-- A digest is written anew for every text and changes with the text only. -/
theorem ofUser_renewed_editedUser
    (request : Request)
    (ring : KeyRing)
    (user : User)
    (time : Int)
    (signature : Signature)
    {old new : SealedTexts}
    (digestedOld : old.Digested user)
    (digestedNew : new.Digested (user.renewed ring (request.editedUser user) time signature)) :
    UserRow.ofUser (user.renewed ring (request.editedUser user) time signature) new =
      { request.editedUserRow (.ofUser user old) with
        displayName := new.displayName.ciphertext
        publicKey := new.publicKey.ciphertext
        email := new.email.ciphertext
        keyVersion := .holds ring.current
        changed := .holds (max time user.stamp.changed)
        signature := .holds signature } := by
  rw [UserRow.ofUser, UserRow.ofUser, digestedOld.displayName, digestedOld.publicKey,
    digestedOld.email, digestedNew.displayName, digestedNew.publicKey, digestedNew.email]
  cases request <;> rfl

end Request

/-! ## Requests -/

section

variable
  {ring : KeyRing}
  {request : Request}
  {expected : Signature}
  {before after : Session}

/-- A change that makes of an organization what the request is about edits its row. -/
theorem Work.mutateOrg_edits
    {id : OrgId}
    {change : Org → Work Org}
    {mutation : Mutation Org}
    (looks : LooksAtRecord change)
    (makes : ∀ org changed session, (change org).Gives session changed session →
      changed = request.editedOrg org)
    (sound : before.tables.Sound)
    (given : (mutate ring id expected change).Gives before mutation after) :
    ∃ earlier later old new,
      EditedOrg request id earlier later old new before.tables after.tables := by
  obtain ⟨loaded, changed, time, signature, earlier, later, changes, rfl, placed, placedThen,
    users⟩ := mutateOrg_renews looks sound given
  obtain rfl := makes loaded changed before changes
  have soundThen := (mutate_changes looks sound given).undergoes.sound sound
  have written := request.ofOrg_renewed_editedOrg loaded time signature
  have reads (tables : Tables) (org : Org) (sound : tables.Sound) (earlier later : List OrgRow)
      (placed : tables.orgs = earlier ++ OrgRow.ofOrg org :: later) :
      tables.org? org.id = .ok (some org) :=
    mapM_eq_ok_some.mpr
      ⟨_, sound.row?_of_placed .org placed rfl, OrgRow.toOrg_ofOrg org⟩
  have readThen := reads after.tables _ soundThen earlier later placedThen
  rw [request.renewed_editedOrg] at readThen
  rw [written] at placedThen
  have sameId : (request.editedOrg loaded).id = loaded.id := by cases request <;> rfl
  exact ⟨earlier, later, _, _, {
    orgs := placed
    orgsAfter := placedThen
    users
    ofId := rfl
    lasts := request.lasts_editedOrgRow _ _ _
    edited := ⟨_, _, rfl⟩
    read := ⟨loaded, _, _, reads before.tables loaded sound earlier later placed,
      sameId ▸ readThen⟩ }⟩

/-- A change that makes of a user what the request is about edits its row. -/
theorem Work.mutateUser_edits
    {id : UserId}
    {change : User → Work User}
    {mutation : Mutation User}
    (looks : LooksAtRecord change)
    (makes : ∀ user changed session, (change user).Gives session changed session →
      changed = request.editedUser user)
    (sound : before.tables.Sound)
    (given : (mutate ring id expected change).Gives before mutation after) :
    ∃ earlier later old new,
      EditedUser ring request id earlier later old new before.tables after.tables := by
  obtain ⟨loaded, changed, oldTexts, texts, time, signature, earlier, later, changes, found,
    rfl, digested, sealedFor, placed, placedThen, orgs⟩ := mutateUser_renews looks sound given
  obtain rfl := makes loaded changed before changes
  have soundThen := (mutate_changes looks sound given).undergoes.sound sound
  have stored := soundThen.row?_of_placed .user placedThen rfl
  have readThen : after.tables.user? ring
      (loaded.renewed ring (request.editedUser loaded) time signature).id = _ :=
    user?_ofUser stored (sealedFor.openTo rfl)
  have sameId : (request.editedUser loaded).id = loaded.id := by cases request <;> rfl
  rw [request.renewed_editedUser] at readThen
  rw [request.ofUser_renewed_editedUser ring loaded time signature digested
    sealedFor.digested] at placedThen
  exact ⟨earlier, later, _, _, {
    users := placed
    usersAfter := placedThen
    orgs
    ofId := rfl
    lasts := request.lasts_editedUserRow _ _ _ _ _ _ _
    edited := ⟨_, _, _, _, _, rfl⟩
    read := ⟨loaded, _, _, found, sameId ▸ readThen⟩ }⟩

namespace Request.Framed

/-- A request that is a change of an organization. -/
theorem of_changeOrg
    {id : OrgId}
    {change : Org → Work Org}
    {mutation : Mutation Org}
    (aimed : request.target? = some ⟨.org, id.uuid, expected⟩)
    (looks : Work.LooksAtRecord change)
    (makes : ∀ org changed session, (change org).Gives session changed session →
      changed = request.editedOrg org)
    (sound : before.tables.Sound)
    (given : (Work.mutate ring id expected change).Gives before mutation after) :
    request.Framed ring before.tables after.tables where
  extended := (Work.mutate_changes looks sound given).undergoes.extends
  creates := by
    intro none
    cases aimed.symm.trans none
  changesOrg := by
    intro other signature same
    have sameSight := Option.some.inj (aimed.symm.trans same)
    obtain rfl : id = other := congrArg Id.mk (congrArg Sight.id sameSight)
    exact Work.mutateOrg_edits looks makes sound given
  changesUser := by
    intro other signature same
    cases congrArg Sight.kind (Option.some.inj (aimed.symm.trans same))

/-- A request that is a change of a user. -/
theorem of_changeUser
    {id : UserId}
    {change : User → User}
    {mutation : Mutation User}
    (aimed : request.target? = some ⟨.user, id.uuid, expected⟩)
    (makes : ∀ user, change user = request.editedUser user)
    (sound : before.tables.Sound)
    (given : (Directory.changeUser ring id expected change).Gives before mutation after) :
    request.Framed ring before.tables after.tables := by
  rcases Work.gives_transaction.mp given with ⟨middle, mutates, rfl⟩
  rw [Work.tables_commit]
  have edits : ∀ user changed session,
      Work.Gives (do
        Work.require (change user).check fun rule => .invalid (.user rule)
        return change user) session changed session → changed = request.editedUser user := by
    intro user changed session checks
    simp only [Work.gives_bind, Work.gives_require, Work.gives_pure] at checks
    obtain ⟨-, _, -, rfl, -⟩ := checks
    exact makes user
  exact {
    extended :=
      (Work.mutate_changes (Work.looksAtRecord_require _ _ change) sound mutates).undergoes.extends
    creates := by
      intro none
      cases aimed.symm.trans none
    changesOrg := by
      intro other signature same
      cases congrArg Sight.kind (Option.some.inj (aimed.symm.trans same))
    changesUser := by
      intro other signature same
      have sameSight := Option.some.inj (aimed.symm.trans same)
      obtain rfl : id = other := congrArg Id.mk (congrArg Sight.id sameSight)
      exact Work.mutateUser_edits (Work.looksAtRecord_require _ _ change) edits sound mutates }

/-- A request that creates records behind all others. -/
theorem of_creation
    (created : request.target? = none)
    (extended : Extends before.tables after.tables)
    (orgs : before.tables.orgs <+: after.tables.orgs)
    (users : before.tables.users <+: after.tables.users) :
    request.Framed ring before.tables after.tables where
  extended
  creates := by
    intro _ kind
    cases kind with
    | org => exact orgs
    | user => exact users
  changesOrg := by
    intro id signature aimed
    cases created.symm.trans aimed
  changesUser := by
    intro id signature aimed
    cases created.symm.trans aimed

/-- A new user is behind all others. -/
theorem createUser
    {org : OrgId}
    {new : NewUser}
    {user : User}
    (given : (Directory.createUser ring org new).Gives before user after) :
    (Request.createUser org new).Framed ring before.tables after.tables := by
  rcases Directory.createUser_gives given with ⟨final, inserts, rfl⟩
  rcases Directory.insertUser_gives inserts with ⟨texts, inserted, -⟩
  have other : RecordKind.org ≠ .user := by decide
  have orgs : final.tables.orgs = before.tables.orgs := inserted.rows_of_ne other
  have users : final.tables.users = before.tables.users ++ [UserRow.ofUser user texts] :=
    inserted.rows_eq
  rw [Work.tables_commit]
  apply of_creation rfl (Undergoes.inserted inserted).extends
  · exact orgs.symm ▸ List.prefix_rfl
  · rw [users]
    exact List.prefix_append _ _

/-- If the last row of a table is written over, all others stay where they are. -/
theorem prefix_of_last
    {α : Type}
    {rows earlier later : List α}
    {last old new : α}
    (placed : rows ++ [last] = earlier ++ old :: later)
    (absent : old ∉ rows) :
    rows <+: earlier ++ new :: later := by
  rcases List.append_eq_append_iff.mp placed with ⟨more, rfl, -⟩ | ⟨more, rfl, rest⟩
  · rw [List.append_assoc]
    exact List.prefix_append _ _
  · cases more with
    | nil =>
        rw [List.append_nil]
        exact List.prefix_append _ _
    | cons first more =>
        cases rest
        simp at absent

/-- The owner of a new organization is behind all users, also after its promotion. -/
theorem createOrg
    {new : NewOrg}
    {created : CreatedOrg}
    (sound : before.tables.Sound)
    (given : (Directory.createOrg ring new).Gives before created after) :
    (Request.createOrg new).Framed ring before.tables after.tables := by
  rcases Directory.createOrg_gives given with ⟨inserted, middle, final, inserts, promotes, rfl⟩
  rcases Directory.insertOrg_gives inserts with ⟨ownerTables, texts, owner, org, -⟩
  rcases Directory.promoteOwner_gives promotes with ⟨promotion, mutates, -⟩
  have soundThen := (Undergoes.inserted org).sound ((Undergoes.inserted owner).sound sound)
  have promoted := (Work.mutate_changes (Work.looksAtRecord_pure _) soundThen mutates).undergoes
  rcases Work.mutate_gives (Work.looksAtRecord_pure _) soundThen mutates with
    ⟨old, newRow, changed⟩
  obtain ⟨stored, earlier, later, _, found, placed, placedThen, -⟩ := changed.users_eq
  have otherOrg : RecordKind.org ≠ .user := by decide
  have otherUser : RecordKind.user ≠ .org := by decide
  have users : middle.tables.users =
      before.tables.users ++ [UserRow.ofUser inserted.owner texts] :=
    (org.rows_of_ne otherUser).trans owner.rows_eq
  have ownerOrgs : ownerTables.orgs = before.tables.orgs := owner.rows_of_ne otherOrg
  have orgs : middle.tables.orgs = ownerTables.orgs ++ [OrgRow.ofOrg inserted.org] :=
    org.rows_eq
  have sameOrgs : final.tables.orgs = middle.tables.orgs :=
    changed.replaced.rows_of_ne otherOrg
  have absent : stored ∉ before.tables.users := by
    intro member
    have holds := (soundThen.row?_eq_some_iff.mp found).2
    exact List.find?_eq_none.mp owner.row?_before stored member (decide_eq_true holds)
  rw [Work.tables_commit]
  apply of_creation rfl
  · exact ((Undergoes.inserted owner).extends.trans (Undergoes.inserted org).extends).trans
      promoted.extends
  · rw [sameOrgs, orgs, ownerOrgs]
    exact List.prefix_append _ _
  · rw [placedThen]
    exact prefix_of_last (users.symm.trans placed) absent

end Request.Framed

/-- An accepted request leaves alone what it is not about. -/
theorem Request.framed
    {response : Response}
    (sound : before.tables.Sound)
    (given : (request.perform ring).Gives before response after) :
    request.Framed ring before.tables after.tables := by
  cases request with
  | createOrg new =>
      simp only [perform, Work.gives_bind, Work.gives_pure] at given
      rcases given with ⟨created, _, creates, -, rfl⟩
      exact .createOrg sound creates
  | createUser org new =>
      simp only [perform, Work.gives_bind, Work.gives_pure] at given
      rcases given with ⟨user, _, creates, -, rfl⟩
      exact .createUser creates
  | setOrgStatus id expected status =>
      simp only [perform, Work.gives_bind, Work.gives_pure] at given
      rcases given with ⟨mutation, _, changes, -, rfl⟩
      rcases Work.gives_transaction.mp changes with ⟨middle, mutates, rfl⟩
      rw [Work.tables_commit]
      refine .of_changeOrg rfl (Work.looksAtRecord_pure _) ?_ sound mutates
      intro org changed session sets
      exact (Work.gives_pure.mp sets).1
  | setOwner id expected owner =>
      simp only [perform, Directory.setOwner, Work.gives_bind, Work.gives_pure,
        Work.gives_transaction] at given
      rcases given with ⟨mutation, _, ⟨final, ⟨_, middle, isMember, mutates⟩, rfl⟩, -, rfl⟩
      obtain rfl := Directory.requireMember_gives isMember
      rw [Work.tables_commit]
      refine .of_changeOrg rfl (Work.looksAtRecord_pure _) ?_ sound mutates
      intro org changed session sets
      exact (Work.gives_pure.mp sets).1
  | renameOrg id expected name =>
      simp only [perform, Work.gives_bind, Work.gives_pure] at given
      rcases given with ⟨mutation, _, changes, -, rfl⟩
      rcases Work.gives_transaction.mp changes with ⟨middle, mutates, rfl⟩
      rw [Work.tables_commit]
      refine .of_changeOrg rfl (Work.looksAtRecord_require _ _ _) ?_ sound mutates
      intro org changed session renames
      simp only [Work.gives_bind, Work.gives_require, Work.gives_pure] at renames
      obtain ⟨-, _, -, rfl, -⟩ := renames
      rfl
  | setDisplayName _ _ _ | setPublicKey _ _ _ | setEmail _ _ _ | setPassword _ _ _
  | setUserStatus _ _ _ | rekey _ _ =>
      simp only [perform, Work.gives_bind, Work.gives_pure] at given
      rcases given with ⟨mutation, _, changes, -, rfl⟩
      exact .of_changeUser rfl (fun _ => rfl) sound changes

end

/-- A query leaves the session as it is, whether it succeeds or not. -/
def Session.UnchangedByQueries (session : Session) : Prop :=
  ∀ (ring : KeyRing) (query : Query), ((query.perform ring).runIn session).2 = session

/--
In every store that a run from an empty store reaches, an accepted request adds to the
trail and to the registry, leaves marks and remarks alone, and either adds records behind
all others or edits the one record that it is about in its place.  Queries change nothing.
-/
theorem requests_leave_the_rest_alone
    (source : Source)
    (events : List Event)
    {ring : KeyRing}
    {request : Request}
    {response : Response}
    {after : Session}
    (given : (request.perform ring).Gives ((Session.founded source).after events) response
      after) :
    request.Framed ring ((Session.founded source).after events).tables after.tables ∧
      ((Session.founded source).after events).UnchangedByQueries := by
  constructor
  · exact Request.framed (Session.sound_after source events) given
  · intro reader query
    exact Query.onlyReads reader query _

/-- The first organization is the only one, and a new status changes nothing else of it. -/
theorem first_organization_is_edited_alone :
    ∃ (events : List Event) (old : OrgRow) (time : Int) (signature : Signature)
      (after : Session),
      ((Session.founded Sample.source).after events).tables.orgs = [old] ∧
      after.tables.orgs =
        [{ old with
          status := .active, changed := .holds time, signature := .holds signature }] ∧
      after.tables.users = ((Session.founded Sample.source).after events).tables.users := by
  rcases Sample.begins with ⟨created, session, creates, first⟩
  obtain ⟨mutation, later, sets⟩ :=
    first.setOrgStatus_succeeds Sample.drawsApart_source .active
  let events : List Event := [.performed Sample.ring (.createOrg Sample.newOrg)]
  have reached : (Session.founded Sample.source).after events = session := by
    rw [Session.after_cons, Session.after_nil, Event.step_performed creates]
  rw [← reached] at sets
  rcases requests_leave_the_rest_alone Sample.source events sets with ⟨framed, -⟩
  obtain ⟨earlier, rest, old, new, edited⟩ := framed.changesOrg created.org.id _ rfl
  rcases edited.edited with ⟨time, signature, rfl⟩
  have only : [OrgRow.ofOrg created.org] = earlier ++ old :: rest := by
    rw [← first.org, ← reached]
    exact edited.orgs
  rcases List.append_eq_singleton_iff.mp only.symm with ⟨rfl, same⟩ | ⟨-, absurd⟩
  · obtain ⟨rfl, rfl⟩ := List.cons.inj same
    exact ⟨events, _, time, signature, later, edited.orgs, edited.orgsAfter, edited.users⟩
  · cases absurd

end SealedDirectory
