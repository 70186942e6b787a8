import SealedDirectory.Proofs.Directory.Commuting
import SealedDirectory.Proofs.Directory.Frame
import SealedDirectory.Proofs.Trail.Twins

/-!
# What is not watched never reaches the trail

Names of organizations and email addresses leave no mark in the trail, and not only in the
entry of the change that they are part of.  Two runs may differ in all of these texts: the
addresses are sealed and written anew with every later change of a user, and requests may
fail in one run because of a name that is too long, and in the other one because an address
is taken.  As long as the same requests succeed in both runs, and the same is drawn for
each of them, the trails are the same, entry by entry and down to their numbers.

The two runs are compared step by step.  Requests that fail draw places of organizations
and users, and not the same ones in both runs, but no numbers of the trail.
-/

namespace SealedDirectory

open Tables

/-! ## Runs that differ in what is not watched -/

/-- Requests that differ at most in an address and in the name of an organization. -/
inductive Request.Alike : Request → Request → Prop
  | same (request : Request) : Alike request request
  | createOrg (new : NewOrg) (name email : String) :
      Alike (.createOrg new) (.createOrg { new with name, owner := { new.owner with email } })
  | createUser (org : OrgId) (new : NewUser) (email : String) :
      Alike (.createUser org new) (.createUser org { new with email })
  | renameOrg (id : OrgId) (expected : Signature) (name other : String) :
      Alike (.renameOrg id expected name) (.renameOrg id expected other)
  | setEmail (id : UserId) (expected : Signature) (email other : String) :
      Alike (.setEmail id expected email) (.setEmail id expected other)

/-- Events that differ at most in such requests; the rings are the same. -/
inductive Event.Alike : Event → Event → Prop
  | performed (ring : KeyRing) {request other : Request} (alike : request.Alike other) :
      Alike (.performed ring request) (.performed ring other)
  | answered (ring : KeyRing) (query : Query) :
      Alike (.answered ring query) (.answered ring query)
  | reopened : Alike .reopened .reopened

/-- An event with the source that everything is drawn from while it takes place. -/
structure Turn where
  source : Source
  event : Event

/-- In both turns the same is drawn, and the events are alike. -/
structure Turn.Alike (turn other : Turn) : Prop where
  source : turn.source = other.source
  event : turn.event.Alike other.event

/-- Whether a request or a query succeeds. -/
def Event.succeeds (session : Session) : Event → Bool
  | .performed ring request => ((request.perform ring).runIn session).1.isOk
  | .answered ring query => ((query.perform ring).runIn session).1.isOk
  | .reopened => true

namespace Turn

def step (session : Session) (turn : Turn) : Session :=
  turn.event.step (session.supplied turn.source)

def succeeds (session : Session) (turn : Turn) : Bool :=
  turn.event.succeeds (session.supplied turn.source)

end Turn

namespace Session

/-- The session after a list of turns. -/
def afterTurns (session : Session) (turns : List Turn) : Session :=
  turns.foldl Turn.step session

/-- Which of the turns succeed, one after the other. -/
def successes (session : Session) : List Turn → List Bool
  | [] => []
  | turn :: turns => turn.succeeds session :: (turn.step session).successes turns

end Session

/-! ## Operations that go in step -/

namespace Work

variable
  {α β γ δ : Type}
  {work : Work α}
  {other : Work β}
  {related : α → β → Prop}

/-- Where the same is drawn and both succeed, the values are related, and so it goes on. -/
def Lockstep
    (work : Work α)
    (other : Work β)
    (related : α → β → Prop) :
    Prop :=
  ∀ left right, left.InStep right → ∀ value after otherValue otherAfter,
    work.Gives left value after → other.Gives right otherValue otherAfter →
      related value otherValue ∧ after.InStep otherAfter

theorem Lockstep.bind
    {next : α → Work γ}
    {otherNext : β → Work δ}
    {relatedThen : γ → δ → Prop}
    (first : work.Lockstep other related)
    (rest : ∀ value otherValue, related value otherValue →
      (next value).Lockstep (otherNext otherValue) relatedThen) :
    (work >>= next).Lockstep (other >>= otherNext) relatedThen := by
  intro left right inStep value after otherValue otherAfter given otherGiven
  rcases gives_bind.mp given with ⟨begun, middle, begins, ends⟩
  rcases gives_bind.mp otherGiven with ⟨otherBegun, otherMiddle, otherBegins, otherEnds⟩
  obtain ⟨relates, inStepThen⟩ :=
    first left right inStep begun middle otherBegun otherMiddle begins otherBegins
  exact rest begun otherBegun relates middle otherMiddle inStepThen value after otherValue
    otherAfter ends otherEnds

theorem lockstep_pure
    {value : α}
    {otherValue : β}
    (relates : related value otherValue) :
    (pure value : Work α).Lockstep (pure otherValue) related := by
  intro left right inStep _ _ _ _ given otherGiven
  obtain ⟨rfl, rfl⟩ := gives_pure.mp given
  obtain ⟨rfl, rfl⟩ := gives_pure.mp otherGiven
  exact ⟨relates, inStep⟩

theorem lockstep_now : now.Lockstep now Eq := by
  intro left right inStep _ _ _ _ given otherGiven
  obtain ⟨rfl, rfl⟩ := gives_now.mp given
  obtain ⟨rfl, rfl⟩ := gives_now.mp otherGiven
  exact ⟨inStep.now_eq 0, inStep.source, congrArg (· + 1) inStep.clock, inStep.uuid⟩

theorem lockstep_freshId (kind : IdKind) : (freshId kind).Lockstep (freshId kind) Eq := by
  intro left right inStep _ _ _ _ given otherGiven
  obtain ⟨rfl, rfl⟩ := gives_freshId.mp given
  obtain ⟨rfl, rfl⟩ := gives_freshId.mp otherGiven
  exact ⟨congrArg Id.mk (inStep.uuidAhead_eq 0), inStep.source, inStep.clock,
    congrArg (· + 1) inStep.uuid⟩

/-- Places may differ. -/
theorem lockstep_place :
    (nextNumber .entity).Lockstep (nextNumber .entity) fun _ _ => True := by
  intro left right inStep _ _ _ _ given otherGiven
  obtain ⟨stored, -, -, rfl⟩ := gives_nextNumber.mp given
  obtain ⟨otherStored, -, -, rfl⟩ := gives_nextNumber.mp otherGiven
  exact ⟨trivial, inStep.source, inStep.clock, inStep.uuid⟩

/-- Operations that draw nothing but nonces are in step, whatever they are. -/
theorem DrawsNonces.lockstep
    (draws : work.DrawsNonces)
    (otherDraws : other.DrawsNonces) :
    work.Lockstep other fun _ _ => True := by
  intro left right inStep _ _ _ _ given otherGiven
  obtain ⟨_, _, rfl⟩ := draws.after_eq given
  obtain ⟨_, _, rfl⟩ := otherDraws.after_eq otherGiven
  exact ⟨trivial, inStep.source, inStep.clock, inStep.uuid⟩

end Work

/-! ## Creating twins -/

namespace Directory

variable {ring : KeyRing}

theorem lockstep_initialStamp
    (status : Status)
    (role : Role) :
    (initialStamp status role).Lockstep (initialStamp status role) fun stamp other =>
      stamp.signature = other.signature ∧ stamp.changed = other.changed ∧
        stamp.status = other.status := by
  apply Work.lockstep_place.bind
  intro order otherOrder _
  apply Work.lockstep_now.bind
  rintro time _ rfl
  apply (Work.lockstep_freshId .signature).bind
  rintro signature _ rfl
  exact Work.lockstep_pure ⟨rfl, rfl, rfl⟩

/-- Users that differ in their addresses are created as twins. -/
theorem lockstep_insertUser
    (org : OrgId)
    (new : NewUser)
    (email : String) :
    (insertUser ring org new).Lockstep (insertUser ring org { new with email }) Twins := by
  apply (Work.lockstep_freshId .user).bind
  rintro id _ rfl
  apply (lockstep_initialStamp .unconfirmed new.role).bind
  rintro stamp other ⟨signature, changed, status⟩
  have inserts (user : User) : (user.insert ring).DrawsNonces :=
    (user.drawsNonces_sealTexts ring).bind fun _ => Work.drawsNonces_execute _
  apply ((inserts _).lockstep (inserts _)).bind
  intro _ _ _
  apply ((Work.drawsNonces_execute _).lockstep (Work.drawsNonces_execute _)).bind
  intro _ _ _
  exact Work.lockstep_pure
    (User.twins_iff.mpr ⟨rfl, signature, changed, rfl, rfl, rfl, rfl, status⟩)

/-- So are organizations, together with their owners. -/
theorem lockstep_insertOrg
    (trimmed otherTrimmed : String)
    (new : NewOrg)
    (name email : String) :
    (insertOrg ring trimmed new).Lockstep
      (insertOrg ring otherTrimmed { new with name, owner := { new.owner with email } })
      fun created other => Twins created.org other.org ∧ Twins created.owner other.owner := by
  apply (Work.lockstep_freshId .org).bind
  rintro id _ rfl
  apply (lockstep_insertUser id new.owner email).bind
  intro owner other twins
  apply (lockstep_initialStamp new.status new.role).bind
  rintro stamp otherStamp ⟨signature, changed, status⟩
  apply ((Work.drawsNonces_require _ _).lockstep (Work.drawsNonces_require _ _)).bind
  intro _ _ _
  apply ((Work.drawsNonces_execute _).lockstep (Work.drawsNonces_execute _)).bind
  intro _ _ _
  apply ((Work.drawsNonces_execute _).lockstep (Work.drawsNonces_execute _)).bind
  intro _ _ _
  have ownerId := (User.twins_iff.mp twins).1
  exact Work.lockstep_pure
    ⟨Org.twins_iff.mpr ⟨rfl, signature, changed, ownerId, status⟩, twins⟩

end Directory

theorem User.StoredIn.shows
    {user : User}
    {row : RecordKind.Row .user}
    (stored : user.StoredIn row) :
    Shows user row := by
  rcases stored with ⟨texts, rfl, digested⟩
  exact User.shows_of_cells _ rfl rfl rfl digested.publicKey digested.displayName rfl rfl rfl

/-! ## Requests -/

namespace Directory

variable
  {ring : KeyRing}
  {left right leftAfter rightAfter : Session}

theorem createUser_keepAlike
    {org : OrgId}
    {new : NewUser}
    {email : String}
    (inStep : left.InStep right)
    (matched : left.Matched right) :
    (createUser ring org new).KeepAlike (createUser ring org { new with email }) left right := by
  intro user _ other _ given otherGiven
  rcases createUser_gives given with ⟨after, inserts, rfl⟩
  rcases createUser_gives otherGiven with ⟨otherAfter, otherInserts, rfl⟩
  rcases insertUser_gives inserts with ⟨texts, inserted, sealedFor, -⟩
  rcases insertUser_gives otherInserts with ⟨otherTexts, otherInserted, otherSealed, -⟩
  obtain ⟨twins, -⟩ := lockstep_insertUser org new email left right inStep user after other
    otherAfter inserts otherInserts
  exact matched.alike.inserted inserted otherInserted
    (twins.glimpse_eq (User.StoredIn.shows ⟨texts, rfl, sealedFor.digested⟩)
      (User.StoredIn.shows ⟨otherTexts, rfl, otherSealed.digested⟩))

/-- After both organizations were inserted, everything is as before but for them. -/
theorem insertOrg_matched
    {trimmed otherTrimmed : String}
    {new : NewOrg}
    {name email : String}
    {created other : CreatedOrg}
    (inStep : left.InStep right)
    (matched : left.Matched right)
    (inserts : (insertOrg ring trimmed new).Gives left created leftAfter)
    (otherInserts : (insertOrg ring otherTrimmed
      { new with name, owner := { new.owner with email } }).Gives right other rightAfter) :
    Twins created.owner other.owner ∧ leftAfter.InStep rightAfter ∧
      leftAfter.Matched rightAfter := by
  rcases insertOrg_gives inserts with ⟨ownerTables, texts, owner, org, sealedFor, -⟩
  rcases insertOrg_gives otherInserts with
    ⟨otherTables, otherTexts, otherOwner, otherOrg, otherSealed, -⟩
  obtain ⟨⟨orgTwins, ownerTwins⟩, inStepThen⟩ := lockstep_insertOrg _ _ new name email left right
    inStep created leftAfter other rightAfter inserts otherInserts
  have owners := matched.alike.inserted owner otherOwner
    (ownerTwins.glimpse_eq (User.StoredIn.shows ⟨texts, rfl, sealedFor.digested⟩)
      (User.StoredIn.shows ⟨otherTexts, rfl, otherSealed.digested⟩))
  exact ⟨ownerTwins, inStepThen, {
    alike := owners.inserted org otherOrg
      (orgTwins.glimpse_eq (Org.shows_of_cells _ rfl rfl rfl rfl rfl)
        (Org.shows_of_cells _ rfl rfl rfl rfl rfl))
    regular := matched.regular.evolves
      ((Evolves.of_undergoes (.inserted owner)).append (.of_undergoes (.inserted org)))
    otherRegular := matched.otherRegular.evolves
      ((Evolves.of_undergoes (.inserted otherOwner)).append
        (.of_undergoes (.inserted otherOrg)))
    gapless := matched.gapless.of_same (insertOrg_sameTrail inserts)
    otherGapless := matched.otherGapless.of_same (insertOrg_sameTrail otherInserts) }⟩

/-- The owners of the new organizations are twins, and both are promoted. -/
theorem createOrg_keepAlike
    {new : NewOrg}
    {name email : String}
    (inStep : left.InStep right)
    (matched : left.Matched right) :
    (createOrg ring new).KeepAlike
      (createOrg ring { new with name, owner := { new.owner with email } }) left right := by
  intro created _ other _ given otherGiven
  rcases createOrg_gives given with ⟨inserted, middle, after, inserts, promotes, rfl⟩
  rcases createOrg_gives otherGiven with
    ⟨otherInserted, otherMiddle, otherAfter, otherInserts, otherPromotes, rfl⟩
  obtain ⟨twins, inStepThen, matchedThen⟩ :=
    insertOrg_matched inStep matched inserts otherInserts
  rcases promoteOwner_gives promotes with ⟨promotion, mutates, -⟩
  rcases promoteOwner_gives otherPromotes with ⟨otherPromotion, otherMutates, -⟩
  obtain ⟨id, signature, -⟩ := User.twins_iff.mp twins
  rw [← id, ← signature] at otherMutates
  refine Work.mutate_keepAlike (Work.makes_pure _) (Work.makes_pure _) ?_ inStepThen matchedThen
    promotion after otherPromotion otherAfter mutates otherMutates
  intro user other twins
  obtain ⟨id, signature, changed, publicKey, displayName, keyVersion, password, -⟩ :=
    User.twins_iff.mp twins
  exact User.twins_iff.mpr
    ⟨id, signature, changed, publicKey, displayName, keyVersion, password, rfl⟩

theorem setOrgStatus_keepAlike
    {id : OrgId}
    {expected : Signature}
    {status : Status}
    (inStep : left.InStep right)
    (matched : left.Matched right) :
    (setOrgStatus ring id expected status).KeepAlike (setOrgStatus ring id expected status) left
      right := by
  apply Work.KeepAlike.transaction
  refine Work.mutate_keepAlike (Work.makes_pure _) (Work.makes_pure _) ?_ inStep matched
  intro org other twins
  obtain ⟨id, signature, changed, owner, -⟩ := Org.twins_iff.mp twins
  exact Org.twins_iff.mpr ⟨id, signature, changed, owner, rfl⟩

theorem setOwner_keepAlike
    {id : OrgId}
    {expected : Signature}
    {owner : UserId}
    (inStep : left.InStep right)
    (matched : left.Matched right) :
    (setOwner ring id expected owner).KeepAlike (setOwner ring id expected owner) left right := by
  apply Work.KeepAlike.transaction
  intro mutation after otherMutation otherAfter given otherGiven
  rcases Work.gives_bind.mp given with ⟨_, middle, isMember, mutates⟩
  rcases Work.gives_bind.mp otherGiven with ⟨_, otherMiddle, otherIsMember, otherMutates⟩
  obtain rfl := requireMember_gives isMember
  obtain rfl := requireMember_gives otherIsMember
  refine Work.mutate_keepAlike (Work.makes_pure _) (Work.makes_pure _) ?_ inStep matched mutation
    after otherMutation otherAfter mutates otherMutates
  intro org other twins
  obtain ⟨id, signature, changed, -, status⟩ := Org.twins_iff.mp twins
  exact Org.twins_iff.mpr ⟨id, signature, changed, rfl, status⟩

/-- Organizations may get any two names. -/
theorem renameOrg_keepAlike
    {id : OrgId}
    {expected : Signature}
    {name otherName : String}
    (inStep : left.InStep right)
    (matched : left.Matched right) :
    (renameOrg ring id expected name).KeepAlike (renameOrg ring id expected otherName) left
      right := by
  have makes (name : String) : Work.Makes (fun org : Org => do
      Work.require (Org.checkName name) fun rule => .invalid (.org rule)
      return { org with name }) fun org => { org with name } :=
    Work.makes_require (fun _ => Org.checkName name) _ _
  apply Work.KeepAlike.transaction
  refine Work.mutate_keepAlike (makes (Text.trim name)) (makes (Text.trim otherName)) ?_ inStep
    matched
  intro org other twins
  have same := Org.twins_iff.mp twins
  exact Org.twins_iff.mpr same

theorem changeUser_keepAlike
    {id : UserId}
    {expected : Signature}
    {edit otherEdit : User → User}
    (keeps : ∀ user other, Twins user other → Twins (edit user) (otherEdit other))
    (inStep : left.InStep right)
    (matched : left.Matched right) :
    (changeUser ring id expected edit).KeepAlike (changeUser ring id expected otherEdit) left
      right :=
  Work.KeepAlike.transaction <| Work.mutate_keepAlike
    (Work.makes_require (fun user => (edit user).check) _ edit)
    (Work.makes_require (fun user => (otherEdit user).check) _ otherEdit) keeps inStep matched

end Directory

namespace Request.Alike

variable {request other : Request}

/-- Twins stay twins when they are edited by requests that are alike. -/
theorem editedUser
    (alike : request.Alike other)
    {user otherUser : User}
    (twins : Twins user otherUser) :
    Twins (request.editedUser user) (other.editedUser otherUser) := by
  obtain ⟨id, signature, changed, publicKey, displayName, keyVersion, password, status⟩ :=
    User.twins_iff.mp twins
  cases alike with
  | same request =>
      cases request with
      | setDisplayName _ _ _ =>
          dsimp only [Request.editedUser]
          exact User.twins_iff.mpr
            ⟨id, signature, changed, publicKey, rfl, keyVersion, password, status⟩
      | setPublicKey _ _ _ =>
          dsimp only [Request.editedUser]
          exact User.twins_iff.mpr
            ⟨id, signature, changed, rfl, displayName, keyVersion, password, status⟩
      | setEmail _ _ _ =>
          dsimp only [Request.editedUser]
          exact User.twins_iff.mpr
            ⟨id, signature, changed, publicKey, displayName, keyVersion, password, status⟩
      | setPassword _ _ _ =>
          dsimp only [Request.editedUser]
          exact User.twins_iff.mpr
            ⟨id, signature, changed, publicKey, displayName, keyVersion, rfl, status⟩
      | setUserStatus _ _ _ =>
          dsimp only [Request.editedUser]
          exact User.twins_iff.mpr
            ⟨id, signature, changed, publicKey, displayName, keyVersion, password, rfl⟩
      | _ => exact twins
  | setEmail _ _ _ _ =>
      dsimp only [Request.editedUser]
      exact User.twins_iff.mpr
        ⟨id, signature, changed, publicKey, displayName, keyVersion, password, status⟩
  | createOrg _ _ _ | createUser _ _ _ | renameOrg _ _ _ _ => exact twins

end Request.Alike

/-- Requests that are alike keep stores alike. -/
theorem Request.Alike.keepAlike
    {ring : KeyRing}
    {request other : Request}
    {left right : Session}
    (alike : request.Alike other)
    (inStep : left.InStep right)
    (matched : left.Matched right) :
    (request.perform ring).KeepAlike (other.perform ring) left right := by
  have edits (user otherUser : User) (twins : Twins user otherUser) := alike.editedUser twins
  cases alike with
  | createOrg _ _ _ => exact (Directory.createOrg_keepAlike inStep matched).answered
  | createUser _ _ _ => exact (Directory.createUser_keepAlike inStep matched).answered
  | renameOrg _ _ _ _ => exact (Directory.renameOrg_keepAlike inStep matched).answered
  | setEmail _ _ _ _ => exact (Directory.changeUser_keepAlike edits inStep matched).answered
  | same request =>
      cases request with
      | createOrg _ => exact (Directory.createOrg_keepAlike inStep matched).answered
      | createUser _ _ => exact (Directory.createUser_keepAlike inStep matched).answered
      | setOrgStatus _ _ _ => exact (Directory.setOrgStatus_keepAlike inStep matched).answered
      | setOwner _ _ _ => exact (Directory.setOwner_keepAlike inStep matched).answered
      | renameOrg _ _ _ => exact (Directory.renameOrg_keepAlike inStep matched).answered
      | setDisplayName _ _ _ | setPublicKey _ _ _ | setEmail _ _ _ | setPassword _ _ _
      | setUserStatus _ _ _ | rekey _ _ =>
          exact (Directory.changeUser_keepAlike edits inStep matched).answered

/-! ## Turns and runs -/

/-- One step of both runs. -/
theorem Event.Alike.lookAlike
    {event other : Event}
    {left right : Session}
    (alike : event.Alike other)
    (inStep : left.InStep right)
    (matched : left.Matched right)
    (together : event.succeeds left = other.succeeds right) :
    (event.step left).tables.LookAlike (other.step right).tables := by
  cases alike with
  | @performed ring request other alike =>
      rcases ran : (request.perform ring).runIn left with ⟨outcome, leftAfter⟩
      rcases otherRan : (other.perform ring).runIn right with ⟨otherOutcome, rightAfter⟩
      simp only [succeeds, ran, otherRan] at together
      simp only [step, ran, otherRan]
      cases outcome with
      | ok response =>
          cases otherOutcome with
          | ok otherResponse =>
              exact alike.keepAlike inStep matched response leftAfter otherResponse rightAfter ran
                otherRan
          | error fault => cases together
      | error fault =>
          cases otherOutcome with
          | ok response => cases together
          | error otherFault =>
              exact matched.alike.rests (Request.rests_of_fails ran)
                (Request.rests_of_fails otherRan)
  | answered ring query =>
      rw [step, step, Query.onlyReads, Query.onlyReads]
      exact matched.alike
  | reopened => exact matched.alike.rests (rests_founded _) (rests_founded _)

theorem Session.Gapless.supplied
    {session : Session}
    (gapless : session.Gapless)
    (source : Source) :
    (session.supplied source).Gapless :=
  gapless.of_same ⟨rfl, rfl, rfl⟩

theorem Turn.Alike.matched
    {turn other : Turn}
    {left right : Session}
    (alike : turn.Alike other)
    (matched : left.Matched right)
    (together : turn.succeeds left = other.succeeds right) :
    (turn.step left).Matched (other.step right) := by
  rcases turn with ⟨source, event⟩
  rcases other with ⟨_, other⟩
  rcases alike with ⟨rfl, alike⟩
  have supplied : (left.supplied source).Matched (right.supplied source) :=
    ⟨matched.alike, matched.regular, matched.otherRegular, matched.gapless.supplied source,
      matched.otherGapless.supplied source⟩
  have regular := supplied.regular
  have otherRegular := supplied.otherRegular
  exact {
    alike := alike.lookAlike ⟨rfl, rfl, rfl⟩ supplied together
    regular := regular.evolves (event.evolves regular.sound)
    otherRegular := otherRegular.evolves (other.evolves otherRegular.sound)
    gapless := event.gapless regular supplied.gapless
    otherGapless := other.gapless otherRegular supplied.otherGapless }

/-- Stores that look alike have the same trail after every step of runs that are alike. -/
theorem Session.Matched.trail_eq
    {left right : Session}
    {turns others : List Turn}
    (matched : left.Matched right)
    (alike : List.Forall₂ Turn.Alike turns others)
    (together : left.successes turns = right.successes others)
    (count : Nat) :
    (left.afterTurns (turns.take count)).tables.trail =
      (right.afterTurns (others.take count)).tables.trail := by
  induction alike generalizing left right count with
  | nil => simpa [afterTurns] using matched.alike.trail
  | cons first rest ih =>
      cases count with
      | zero => exact matched.alike.trail
      | succ count =>
          obtain ⟨succeeds, later⟩ := List.cons.inj together
          exact ih (first.matched matched succeeds) later count

/-! ## The main statement -/

/--
Two runs from an empty store, of which each step draws from the same source in both and is the
same but for the names of organizations and the email addresses in it: if in every step the
one succeeds as the other does, then after every step both have the same trail.
-/
theorem unwatched_texts_never_reach_the_trail
    (source : Source)
    {turns others : List Turn}
    (alike : List.Forall₂ Turn.Alike turns others)
    (together : (Session.founded source).successes turns =
      (Session.founded source).successes others)
    (count : Nat) :
    ((Session.founded source).afterTurns (turns.take count)).tables.trail =
      ((Session.founded source).afterTurns (others.take count)).tables.trail := by
  have regular := Session.regular_after source []
  have gapless := Session.gapless_founded source
  have matched : (Session.founded source).Matched (Session.founded source) :=
    ⟨⟨fun _ => rfl, rfl⟩, regular, regular, gapless, gapless⟩
  exact matched.trail_eq alike together count

theorem Session.successes_of_gives
    {session after : Session}
    {source : Source}
    {ring : KeyRing}
    {request : Request}
    {response : Response}
    (given : (request.perform ring).Gives (session.supplied source) response after) :
    session.successes [⟨source, .performed ring request⟩] = [true] :=
  congrArg (fun succeeds => [succeeds]) (isOk_serve given)

theorem Session.supplied_founded (source : Source) :
    (founded source).supplied source = founded source :=
  rfl

namespace Sample

/-- The first organization under a name, with an owner under an address. -/
def creation (name email : String) : Turn where
  source := source
  event := .performed ring
    (.createOrg { newOrg with name, owner := { newOrg.owner with email } })

theorem successes_creation
    (name email : String)
    (named : Org.checkName (Text.trim name) = .ok ())
    (checked : { newOrg.owner with email }.check = .ok ()) :
    (Session.founded source).successes [creation name email] = [true] := by
  obtain ⟨created, later, given, -⟩ := first_request_succeeds source ring
    { newOrg with name, owner := { newOrg.owner with email } } named checked
    fun first below second belowSecond =>
      drawsApart_source first (by omega) second (by omega)
  rw [← Session.supplied_founded] at given
  exact Session.successes_of_gives given

theorem alike_creation (name email other address : String) :
    (creation name email).Alike (creation other address) :=
  ⟨rfl, .performed ring (.createOrg
    { newOrg with name, owner := { newOrg.owner with email } } other address)⟩

end Sample

/-- Neither the name of the first organization nor the address of its owner is noted. -/
theorem first_name_and_address_are_not_noted :
    let begun := Session.founded Sample.source
    let left := [Sample.creation "a" "d@e"]
    let right := [Sample.creation "x" "y@z"]
    begun.successes left = [true] ∧ begun.successes right = [true] ∧
      (begun.afterTurns left).tables.trail = (begun.afterTurns right).tables.trail := by
  have succeeds := Sample.successes_creation "a" "d@e" (by decide +kernel) (by decide +kernel)
  have otherSucceeds :=
    Sample.successes_creation "x" "y@z" (by decide +kernel) (by decide +kernel)
  have trails (source : Source) (turn other : Turn) (alike : turn.Alike other)
      (together : (Session.founded source).successes [turn] =
        (Session.founded source).successes [other]) :
      ((Session.founded source).afterTurns [turn]).tables.trail =
        ((Session.founded source).afterTurns [other]).tables.trail :=
    unwatched_texts_never_reach_the_trail source (.cons alike .nil) together 1
  exact ⟨succeeds, otherSucceeds, trails Sample.source _ _
    (Sample.alike_creation "a" "d@e" "x" "y@z") (succeeds.trans otherSucceeds.symm)⟩

end SealedDirectory
