import SealedDirectory.Proofs.Work.Outcome

/-!
# Failures that are not about the trail

The trail has columns that must be unique, so noting a change could fail because of them.
All other steps of the directory can fail for many reasons, and none of these is about the
trail.  This is shown here step by step: for what is read and opened, for statements about
other tables, and for sequences of operations.
-/

namespace SealedDirectory

/-! ## Outcomes -/

/-- A fault that names columns of the trail that must be unique. -/
def Fault.BreaksTrail (fault : Fault) : Prop :=
  ∃ unique ∈ EntryRow.uniques, fault = .taken unique.columns

/-- An outcome that is not a failure because of the trail. -/
def Spared
    {α : Type}
    (outcome : Except Fault α) :
    Prop :=
  ∀ fault, outcome = .error fault → ¬ fault.BreaksTrail

variable {α β ρ : Type}

theorem spared_ok (value : α) : Spared (.ok value) := by
  intro fault failed
  cases failed

/-- A fault that nothing is taken is not about the trail. -/
theorem spared_error
    {fault : Fault}
    (other : fault.isTaken = false) :
    Spared (.error fault : Except Fault α) := by
  rintro _ ⟨⟩ ⟨unique, -, rfl⟩
  cases other

theorem Spared.bind
    {first : Except Fault α}
    {next : α → Except Fault β}
    (spared : Spared first)
    (rest : ∀ value, Spared (next value)) :
    Spared (first >>= next) := by
  cases first with
  | ok value => exact rest value
  | error fault => exact fun other failed => spared other (by cases failed; rfl)

theorem Spared.mapM_option
    {found : Option α}
    {read : α → Except Fault β}
    (spared : ∀ item, Spared (read item)) :
    Spared (found.mapM read) := by
  cases found with
  | none => exact spared_ok _
  | some item => exact (spared item).bind fun _ => spared_ok _

theorem Spared.mapM
    {read : α → Except Fault β}
    (spared : ∀ item, Spared (read item))
    (items : List α) :
    Spared (items.mapM read) := by
  induction items with
  | nil => exact spared_ok _
  | cons item items ih =>
      rw [List.mapM_cons]
      exact (spared item).bind fun _ => ih.bind fun _ => spared_ok _

/-! ## Reading -/

theorem Cell.spared_read
    [Storable α]
    (cell : Cell α)
    (index : Nat)
    (column : String) :
    Spared (cell.read index column) := by
  cases cell with
  | holds value => exact spared_ok value
  | foreign content =>
      rw [Cell.read]
      split
      · exact spared_ok _
      · exact spared_error rfl
      · exact spared_error rfl

theorem OrgRow.spared_toOrg (row : OrgRow) : Spared row.toOrg := by
  refine (row.id.spared_read _ _).bind fun id => ?_
  refine (row.owner.spared_read _ _).bind fun owner => ?_
  refine (row.created.spared_read _ _).bind fun created => ?_
  refine (row.changed.spared_read _ _).bind fun changed => ?_
  refine (row.order.spared_read _ _).bind fun order => ?_
  refine (row.layout.spared_read _ _).bind fun layout => ?_
  exact (row.signature.spared_read _ _).bind fun signature => spared_ok _

theorem UserRow.spared_toStored (row : UserRow) : Spared row.toStored := by
  refine (row.keyVersion.spared_read _ _).bind fun keyVersion => ?_
  refine (row.id.spared_read _ _).bind fun id => ?_
  refine (row.org.spared_read _ _).bind fun org => ?_
  refine (row.created.spared_read _ _).bind fun created => ?_
  refine (row.changed.spared_read _ _).bind fun changed => ?_
  refine (row.order.spared_read _ _).bind fun order => ?_
  refine (row.layout.spared_read _ _).bind fun layout => ?_
  exact (row.signature.spared_read _ _).bind fun signature => spared_ok _

theorem SealedField.spared_opened
    (field : SealedField)
    (ring : KeyRing) :
    Spared (field.opened ring) := by
  have gets : Spared (ring.get field.keyVersion) := by
    rw [KeyRing.get]
    split
    · exact spared_ok _
    · exact spared_error rfl
  have frames (key : Key) (framed : Bytes) : Spared (Envelope.openedFrame key framed) := by
    rw [Envelope.openedFrame]
    split
    · exact spared_error rfl
    · split
      · exact spared_error rfl
      · split
        · exact spared_ok _
        · exact spared_error rfl
  refine gets.bind fun key => ?_
  rw [Envelope.opened]
  split
  · exact spared_error rfl
  · next framed _ =>
      split
      · next fault failed => exact failed ▸ frames key framed
      · split
        · exact spared_ok _
        · exact spared_error rfl

theorem StoredUser.spared_opened
    (stored : StoredUser)
    (ring : KeyRing) :
    Spared (stored.opened ring) := by
  refine (stored.texts.displayName.spared_opened ring).bind fun displayName => ?_
  refine (stored.texts.publicKey.spared_opened ring).bind fun publicKey => ?_
  exact (stored.texts.email.spared_opened ring).bind fun email => spared_ok _

namespace Tables

theorem spared_org? (tables : Tables) (id : OrgId) : Spared (tables.org? id) :=
  .mapM_option OrgRow.spared_toOrg

theorem spared_user?
    (tables : Tables)
    (ring : KeyRing)
    (id : UserId) :
    Spared (tables.user? ring id) := by
  have stored : Spared (tables.storedUser? id) := .mapM_option UserRow.spared_toStored
  exact stored.bind fun _ => .mapM_option fun found => found.spared_opened ring

theorem spared_members
    (tables : Tables)
    (ring : KeyRing)
    (org : OrgId) :
    Spared (tables.members ring org) := by
  have stored := Spared.mapM UserRow.spared_toStored
    (inOrder UserRow.order (tables.users.filter fun row => row.org = .holds org))
  exact stored.bind fun found => .mapM (fun user => user.spared_opened ring) found

end Tables

/-! ## Statements -/

/-- The rules of a table name other columns than those of the trail. -/
def ApartFromTrail (uniques : List (Unique ρ)) : Prop :=
  ∀ unique ∈ uniques, ¬ (Fault.taken unique.columns).BreaksTrail

theorem OrgRow.apartFromTrail : ApartFromTrail OrgRow.uniques := by
  simp [ApartFromTrail, OrgRow.uniques, Fault.BreaksTrail, EntryRow.uniques]

theorem UserRow.apartFromTrail : ApartFromTrail UserRow.uniques := by
  simp [ApartFromTrail, UserRow.uniques, Fault.BreaksTrail, EntryRow.uniques]

theorem SignatureRow.apartFromTrail : ApartFromTrail SignatureRow.uniques := by
  simp [ApartFromTrail, SignatureRow.uniques, Fault.BreaksTrail, EntryRow.uniques]

theorem ApartFromTrail.spared_broken
    {uniques : List (Unique ρ)}
    {row : ρ}
    {others : List ρ}
    {columns : List String}
    (apart : ApartFromTrail uniques)
    (broken : brokenUnique? uniques row others = some columns) :
    Spared (.error (.taken columns) : Except Fault α) := by
  rw [brokenUnique?, Option.map_eq_some_iff] at broken
  rcases broken with ⟨unique, found, rfl⟩
  rintro _ ⟨⟩
  exact apart unique (List.mem_of_find?_eq_some found)

theorem spared_insertRow
    {uniques : List (Unique ρ)}
    (apart : ApartFromTrail uniques)
    (row : ρ)
    (rows : List ρ) :
    Spared (insertRow uniques row rows) := by
  rw [insertRow]
  split
  · next columns broken => exact apart.spared_broken broken
  · exact spared_ok _

theorem spared_updateRows
    {uniques : List (Unique ρ)}
    {select : ρ → Bool}
    {change : ρ → Except Fault ρ}
    (apart : ApartFromTrail uniques)
    (changes : ∀ row, Spared (change row))
    (done rows : List ρ) :
    Spared (updateRows uniques select change done rows) := by
  induction rows generalizing done with
  | nil => exact spared_ok _
  | cons row rest ih =>
      rw [updateRows]
      split
      · refine (changes row).bind fun changed => ?_
        split
        · next columns broken => exact apart.spared_broken broken
        · exact (ih _).bind fun _ => spared_ok _
      · exact ih _

namespace Tables

theorem spared_insertOrg (tables : Tables) (row : OrgRow) : Spared (tables.insertOrg row) :=
  (spared_insertRow OrgRow.apartFromTrail row _).bind fun _ => spared_ok _

theorem spared_insertUser (tables : Tables) (row : UserRow) : Spared (tables.insertUser row) :=
  (spared_insertRow UserRow.apartFromTrail row _).bind fun _ => spared_ok _

theorem spared_register
    (tables : Tables)
    (signature : Signature)
    (kind : RecordKind)
    (time : Int) :
    Spared (tables.register signature kind time) :=
  (spared_insertRow SignatureRow.apartFromTrail _ _).bind fun _ => spared_ok _

theorem spared_updateOrg
    (tables : Tables)
    (org : Org)
    (expected : Signature) :
    Spared (tables.updateOrg org expected) :=
  (spared_updateRows OrgRow.apartFromTrail (fun _ => spared_ok _) _ _).bind fun _ => spared_ok _

theorem spared_updateUser
    (tables : Tables)
    (user : User)
    (texts : SealedTexts)
    (expected : Signature) :
    Spared (tables.updateUser user texts expected) :=
  (spared_updateRows UserRow.apartFromTrail (fun _ => spared_ok _) _ _).bind fun _ => spared_ok _

end Tables

/-! ## Operations -/

namespace Work

/-- In a session an operation does not fail because of the trail. -/
def Spares
    (work : Work α)
    (session : Session) :
    Prop :=
  Spared (work.runIn session).1

variable {session : Session}

theorem spares_pure (value : α) (session : Session) : (pure value : Work α).Spares session :=
  spared_ok value

theorem spares_throw
    {fault : Fault}
    (other : fault.isTaken = false)
    (session : Session) :
    (throw fault : Work α).Spares session :=
  spared_error other

theorem Gives.spares
    {work : Work α}
    {value : α}
    {after : Session}
    (given : work.Gives session value after) :
    work.Spares session := by
  rw [Spares, show work.runIn session = _ from given]
  exact spared_ok value

/-- A sequence fails with its first member, or with the second after the first succeeded. -/
theorem Spares.bind
    {work : Work α}
    {next : α → Work β}
    (first : work.Spares session)
    (rest : ∀ value middle, work.Gives session value middle → (next value).Spares middle) :
    (work >>= next).Spares session := by
  rw [Spares, runIn_bind]
  rcases ran : work.runIn session with ⟨outcome, middle⟩
  cases outcome with
  | ok value => exact rest value middle ran
  | error fault =>
      rw [Spares, ran] at first
      exact fun other failed => first other (by cases failed; rfl)

theorem Spares.ite
    {condition : Prop}
    [Decidable condition]
    {work other : Work α}
    (first : condition → work.Spares session)
    (second : ¬ condition → other.Spares session) :
    (if condition then work else other).Spares session := by
  by_cases holds : condition
  · rw [if_pos holds]
    exact first holds
  · rw [if_neg holds]
    exact second holds

theorem spares_ask
    {question : Tables → Except Fault α}
    (spared : ∀ tables, Spared (question tables))
    (session : Session) :
    (ask question).Spares session := by
  rw [Spares, runIn_ask]
  exact spared session.tables

theorem spares_answer
    {statement : Tables → Except Fault (Tables × α)}
    (spared : ∀ tables, Spared (statement tables))
    (session : Session) :
    (answer statement).Spares session := by
  have stated := spared session.tables
  rw [Spares, runIn_answer]
  split
  · exact spared_ok _
  · next fault failed => exact fun other same => stated other (by cases same; exact failed)

theorem spares_execute
    {statement : Tables → Except Fault Tables}
    (spared : ∀ tables, Spared (statement tables))
    (session : Session) :
    (execute statement).Spares session := by
  apply spares_answer
  intro tables
  have stated := spared tables
  cases outcome : statement tables with
  | ok changed => exact spared_ok _
  | error fault =>
      rw [outcome] at stated
      exact fun other failed => stated other (by cases failed; rfl)

theorem spares_require
    {σ : Type}
    {fault : σ → Fault}
    (other : ∀ rule, (fault rule).isTaken = false)
    (check : Except σ Unit)
    (session : Session) :
    (require check fault).Spares session := by
  cases check with
  | ok done => exact spares_pure _ _
  | error rule => exact spares_throw (other rule) session

theorem Spares.transaction
    {work : Work α}
    (spares : work.Spares session) :
    Spares (transaction work) session := by
  rw [Spares, runIn_transaction]
  rcases ran : work.runIn session with ⟨outcome, middle⟩
  rw [Spares, ran] at spares
  cases outcome with
  | ok value => exact spared_ok value
  | error fault => exact fun other failed => spares other (by cases failed; rfl)

theorem spares_nextNumber
    (sequence : Sequence)
    (session : Session) :
    (nextNumber sequence).Spares session := by
  refine (spares_ask (fun tables => Cell.spared_read _ _ _) session).bind ?_
  intro stored middle _
  exact spared_ok _

end Work

end SealedDirectory
