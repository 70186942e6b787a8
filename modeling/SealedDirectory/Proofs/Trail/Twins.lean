import SealedDirectory.Proofs.Trail.Gapless
import SealedDirectory.Proofs.Directory.Amendment

/-!
# Records that the trail cannot tell apart

The trail is told the identifier of a record, the times and the signatures of its changes,
and what its watched columns held.  Two records that agree in all of this are twins,
whatever else they are, and two stores look alike if their rows are twins one by one and
their trails are the same.

If in two stores that look alike twins are changed so that they stay twins, and the same
is drawn for both changes, then both changes are noted by the same entries, and the stores
look alike again.  That the entries get the same numbers rests on trails having no gaps.
-/

namespace SealedDirectory

open Tables

/-! ## Twins -/

/-- What the trail is told of a record is the same for both. -/
structure Twins
    {R : Type}
    [Versioned R]
    (left right : R) :
    Prop where
  id : Versioned.id left = Versioned.id right
  signature : (Versioned.stamp left).signature = (Versioned.stamp right).signature
  changed : (Versioned.stamp left).changed = (Versioned.stamp right).changed
  watched : ∀ watch ∈ Versioned.watched (R := R), watch.value left = watch.value right

theorem Status.code_injective : Function.Injective Status.code := by
  intro left right same
  exact Option.some.inj ((ofCode?_code left).symm.trans (same ▸ ofCode?_code right))

theorem Json.integer_injective : Function.Injective Json.integer := by
  intro left right same
  simpa [Json.integer] using same

theorem Org.twins_iff
    {left right : Org} :
    Twins left right ↔ left.id = right.id ∧ left.stamp.signature = right.stamp.signature ∧
      left.stamp.changed = right.stamp.changed ∧ left.owner = right.owner ∧
      left.stamp.status = right.stamp.status := by
  constructor
  · rintro ⟨id, signature, changed, watched⟩
    have owner := watched _ (List.mem_of_getElem? (i := 0) rfl)
    have status := watched _ (List.mem_of_getElem? (i := 1) rfl)
    exact ⟨id, signature, changed, Id.bare_injective (Json.text.inj owner),
      Status.code_injective (Json.integer_injective status)⟩
  · rintro ⟨id, signature, changed, owner, status⟩
    refine ⟨id, signature, changed, ?_⟩
    intro watch member
    simp only [Versioned.watched, Org.watched, List.mem_cons, List.not_mem_nil,
      or_false] at member
    rcases member with rfl | rfl
    · exact congrArg (fun owner : UserId => Json.text owner.bare) owner
    · exact congrArg (fun status : Status => Json.integer status.code) status

theorem User.twins_iff
    {left right : User} :
    Twins left right ↔ left.id = right.id ∧ left.stamp.signature = right.stamp.signature ∧
      left.stamp.changed = right.stamp.changed ∧
      fingerprint left.publicKey = fingerprint right.publicKey ∧
      fingerprint left.displayName = fingerprint right.displayName ∧
      left.keyVersion = right.keyVersion ∧ left.password = right.password ∧
      left.stamp.status = right.stamp.status := by
  constructor
  · rintro ⟨id, signature, changed, watched⟩
    have publicKey := watched _ (List.mem_of_getElem? (i := 0) rfl)
    have displayName := watched _ (List.mem_of_getElem? (i := 1) rfl)
    have keyVersion := watched _ (List.mem_of_getElem? (i := 2) rfl)
    have password := watched _ (List.mem_of_getElem? (i := 3) rfl)
    have status := watched _ (List.mem_of_getElem? (i := 4) rfl)
    exact ⟨id, signature, changed, Json.text.inj publicKey, Json.text.inj displayName,
      Id.bare_injective (Json.text.inj keyVersion), Json.text.inj password,
      Status.code_injective (Json.integer_injective status)⟩
  · rintro ⟨id, signature, changed, publicKey, displayName, keyVersion, password, status⟩
    refine ⟨id, signature, changed, ?_⟩
    intro watch member
    simp only [Versioned.watched, User.watched, List.mem_cons, List.not_mem_nil,
      or_false] at member
    rcases member with rfl | rfl | rfl | rfl | rfl
    · exact congrArg Json.text publicKey
    · exact congrArg Json.text displayName
    · exact congrArg (fun version : KeyVersion => Json.text version.bare) keyVersion
    · exact congrArg Json.text password
    · exact congrArg (fun status : Status => Json.integer status.code) status

/-- What the trail is told of a row. -/
structure RecordKind.Glimpse (kind : RecordKind) where
  id : Cell (Id kind.idKind)
  signature : Cell Signature
  changed : Cell Int
  watched : List Content

def RecordKind.glimpse (kind : RecordKind) (row : kind.Row) : kind.Glimpse where
  id := kind.idCell row
  signature := kind.signatureCell row
  changed := kind.changedCell row
  watched := kind.watchedColumns.map (kind.contents row).value

section

variable
  {R : Type}
  [Versioned R]
  [Kept R]
  {left right : R}
  {row other : (Versioned.kind R).Row}

/-- Records are twins if the trail is told the same of their rows. -/
theorem Twins.of_glimpse_eq
    (shows : Shows left row)
    (otherShows : Shows right other)
    (same : (Versioned.kind R).glimpse row = (Versioned.kind R).glimpse other) :
    Twins left right where
  id := by
    have cells := congrArg RecordKind.Glimpse.id same
    have ids := Cell.holds.inj (shows.id.symm.trans (cells.trans otherShows.id))
    exact congrArg Id.mk (Id.mk.inj ids)
  signature := by
    have cells := congrArg RecordKind.Glimpse.signature same
    exact Cell.holds.inj (shows.signature.symm.trans (cells.trans otherShows.signature))
  changed := by
    have cells := congrArg RecordKind.Glimpse.changed same
    exact Cell.holds.inj (shows.changed.symm.trans (cells.trans otherShows.changed))
  watched := by
    intro watch member
    have column : watch.column ∈ (Versioned.kind R).watchedColumns := by
      rw [← Kept.columns]
      exact List.mem_map_of_mem member
    have contents := List.map_inj_left.mp (congrArg RecordKind.Glimpse.watched same) _ column
    rw [← shows.watched watch member, ← otherShows.watched watch member, contents]

/-- The trail is told the same of the rows of twins. -/
theorem Twins.glimpse_eq
    (twins : Twins left right)
    (shows : Shows left row)
    (otherShows : Shows right other) :
    (Versioned.kind R).glimpse row = (Versioned.kind R).glimpse other := by
  have watched : (Versioned.kind R).watchedColumns.map ((Versioned.kind R).contents row).value =
      (Versioned.kind R).watchedColumns.map ((Versioned.kind R).contents other).value := by
    rw [← Kept.columns, List.map_map, List.map_map]
    refine List.map_congr_left fun watch member => ?_
    apply Content.shown_injective
    exact (shows.watched watch member).trans
      ((twins.watched watch member).trans (otherShows.watched watch member).symm)
  rw [RecordKind.glimpse, RecordKind.glimpse, RecordKind.Glimpse.mk.injEq, shows.id,
    otherShows.id, shows.signature, otherShows.signature, shows.changed, otherShows.changed,
    twins.id, twins.signature, twins.changed]
  exact ⟨rfl, rfl, rfl, watched⟩

end

/-! ## Stores that look alike -/

namespace Tables

/-- The rows are twins one by one, and the trails are the same. -/
structure LookAlike (left right : Tables) : Prop where
  glimpses : ∀ kind, (left.rows kind).map kind.glimpse = (right.rows kind).map kind.glimpse
  trail : left.trail = right.trail

namespace LookAlike

variable
  {left right leftAfter rightAfter : Tables}
  {kind : RecordKind}

theorem glimpse_row?
    (alike : left.LookAlike right)
    (kind : RecordKind)
    (id : Uuid) :
    (left.row? kind id).map kind.glimpse = (right.row? kind id).map kind.glimpse := by
  have seen (tables : Tables) : (tables.row? kind id).map kind.glimpse =
      ((tables.rows kind).map kind.glimpse).find? fun glimpse => glimpse.id = .holds ⟨id⟩ := by
    rw [List.find?_map]
    rfl
  rw [seen, seen, alike.glimpses]

/-- Tables that rest go on looking alike. -/
theorem rests
    (alike : left.LookAlike right)
    (idle : Rests left leftAfter)
    (otherIdle : Rests right rightAfter) :
    leftAfter.LookAlike rightAfter where
  glimpses := by
    intro kind
    rw [idle.rows_eq, otherIdle.rows_eq]
    exact alike.glimpses kind
  trail := idle.trail.trans (alike.trail.trans otherIdle.trail.symm)

/-- So do tables into which twins are inserted. -/
theorem inserted
    {id otherId : Uuid}
    {signature otherSignature : Signature}
    {row other : kind.Row}
    (alike : left.LookAlike right)
    (inserts : Inserted ⟨kind, id, signature⟩ row left leftAfter)
    (otherInserts : Inserted ⟨kind, otherId, otherSignature⟩ other right rightAfter)
    (same : kind.glimpse row = kind.glimpse other) :
    leftAfter.LookAlike rightAfter where
  glimpses := by
    intro kind'
    by_cases sameKind : kind' = kind
    · subst sameKind
      rw [inserts.rows_eq, otherInserts.rows_eq, List.map_append, List.map_append,
        alike.glimpses, List.map_singleton, List.map_singleton, same]
    · rw [inserts.rows_of_ne sameKind, otherInserts.rows_of_ne sameKind]
      exact alike.glimpses kind'
  trail := inserts.trail_eq.trans (alike.trail.trans otherInserts.trail_eq.symm)

end LookAlike

/-- Where a row gives place to another one, the trail is told of the new one from now on. -/
theorem Replaced.glimpses_eq
    {sight : Sight}
    {signature : Signature}
    {entries : List Entry}
    {old new : sight.kind.Row}
    {before after : Tables}
    (replaced : Replaced sight signature entries old new before after)
    (sound : before.Sound) :
    (after.rows sight.kind).map sight.kind.glimpse =
      ((before.rows sight.kind).map sight.kind.glimpse).map fun seen =>
        if seen.id = .holds ⟨sight.id⟩ then sight.kind.glimpse new else seen := by
  rcases replaced.rows_eq with ⟨earlier, later, placed, placedThen, -⟩
  have others := sound.others_ne sight.kind placed replaced.id
  have kept (rows : List sight.kind.Row)
      (among : ∀ row ∈ rows, sight.kind.idCell row ≠ .holds ⟨sight.id⟩) :
      ((rows.map sight.kind.glimpse).map fun seen =>
        if seen.id = .holds ⟨sight.id⟩ then sight.kind.glimpse new else seen) =
        rows.map sight.kind.glimpse := by
    rw [List.map_map]
    exact List.map_congr_left fun row member => if_neg (among row member)
  have became : (sight.kind.glimpse old).id = .holds ⟨sight.id⟩ := replaced.id
  rw [placed, placedThen]
  simp only [List.map_append, List.map_cons]
  rw [kept earlier fun row member => others row (List.mem_append_left _ member),
    kept later fun row member => others row (List.mem_append_right _ member), if_pos became]

/-- Tables look alike if twins give place to twins, and the same is noted of both. -/
theorem LookAlike.replaced
    {left right leftAfter rightAfter : Tables}
    {kind : RecordKind}
    {id : Uuid}
    {expected otherExpected signature otherSignature : Signature}
    {entries : List Entry}
    {old new otherOld otherNew : kind.Row}
    (alike : left.LookAlike right)
    (sound : left.Sound)
    (otherSound : right.Sound)
    (replaces : Replaced ⟨kind, id, expected⟩ signature entries old new left leftAfter)
    (otherReplaces : Replaced ⟨kind, id, otherExpected⟩ otherSignature entries otherOld otherNew
      right rightAfter)
    (same : kind.glimpse new = kind.glimpse otherNew) :
    leftAfter.LookAlike rightAfter where
  glimpses := by
    intro kind'
    by_cases sameKind : kind' = kind
    · subst sameKind
      rw [replaces.glimpses_eq sound, otherReplaces.glimpses_eq otherSound, alike.glimpses, same]
    · rw [replaces.rows_of_ne sameKind, otherReplaces.rows_of_ne sameKind]
      exact alike.glimpses kind'
  trail := by
    rw [replaces.trail_eq, otherReplaces.trail_eq, alike.trail]

end Tables

/-! ## What is noted of twins -/

/-- Entries with numbers that follow each other are known without their numbers. -/
theorem Consecutive.eq_of_unordered
    {first : Int}
    {entries others : List Entry}
    (consecutive : Consecutive first entries)
    (otherConsecutive : Consecutive first others)
    (same : entries.map Entry.unordered = others.map Entry.unordered) :
    entries = others := by
  induction entries generalizing first others with
  | nil => exact (List.map_eq_nil_iff.mp same.symm).symm
  | cons entry entries ih =>
      cases others with
      | nil => cases same
      | cons other others =>
          obtain ⟨unordered, rest⟩ := List.cons.inj same
          have ordered (entry : Entry) :
              entry = { entry.unordered with order := entry.order } :=
            rfl
          rw [ordered entry, ordered other, unordered, consecutive.1, otherConsecutive.1,
            ih consecutive.2 otherConsecutive.2 rest]

namespace Twins

variable
  {R : Type}
  [Versioned R]
  {before after otherBefore otherAfter : R}

theorem changes_eq
    (twins : Twins before otherBefore)
    (twinsThen : Twins after otherAfter) :
    changes Versioned.watched before after = changes Versioned.watched otherBefore otherAfter := by
  refine List.filterMap_congr fun watch member => ?_
  rw [Watch.change?, Watch.change?, twins.watched watch member, twinsThen.watched watch member]

theorem ofChange_eq
    (twins : Twins before otherBefore)
    (twinsThen : Twins after otherAfter)
    (time : Int) :
    Entry.ofChange before after time = Entry.ofChange otherBefore otherAfter time := by
  funext change
  rw [Entry.ofChange, Entry.ofChange, twins.signature, twins.changed, twinsThen.id,
    twinsThen.signature, twinsThen.changed]

end Twins

/-! ## Changing twins -/

namespace Session

/-- The same will be drawn from two sessions, nonces left aside. -/
structure InStep (left right : Session) : Prop where
  source : left.source = right.source
  clock : left.drawn.clock = right.drawn.clock
  uuid : left.drawn.uuid = right.drawn.uuid

theorem InStep.uuidAhead_eq
    {left right : Session}
    (inStep : left.InStep right)
    (count : Nat) :
    left.uuidAhead count = right.uuidAhead count := by
  rw [uuidAhead, uuidAhead, inStep.source, inStep.uuid]

theorem InStep.now_eq
    {left right : Session}
    (inStep : left.InStep right)
    (count : Nat) :
    (left.source.clock (left.drawn.clock + count)).seconds =
      (right.source.clock (right.drawn.clock + count)).seconds := by
  rw [inStep.source, inStep.clock]

/-- Two stores that look alike, kept as the directory keeps them. -/
structure Matched (left right : Session) : Prop where
  alike : left.tables.LookAlike right.tables
  regular : left.tables.Regular
  otherRegular : right.tables.Regular
  gapless : left.Gapless
  otherGapless : right.Gapless

end Session

/-- Kinds of records of which twins stay twins when they are renewed. -/
class RenewsTwins
    (R : Type)
    [Versioned R] :
    Prop where
  renewal {left right : Session} {loaded other changed otherChanged : R}
    (inStep : left.InStep right)
    (ring : KeyRing)
    (twins : Twins loaded other)
    (twinsThen : Twins changed otherChanged) :
    Twins (Work.renewal ring left loaded changed) (Work.renewal ring right other otherChanged)

/-- The time of a renewed record depends on what twins have in common. -/
theorem Session.InStep.changed_eq
    {left right : Session}
    (inStep : left.InStep right)
    {changed otherChanged : Int}
    (same : changed = otherChanged) :
    max (left.source.clock left.drawn.clock).seconds changed =
      max (right.source.clock right.drawn.clock).seconds otherChanged := by
  rw [same, inStep.source, inStep.clock]

instance : RenewsTwins Org where
  renewal := by
    intro left right loaded other changed otherChanged inStep ring twins twinsThen
    obtain ⟨id, -, -, owner, status⟩ := Org.twins_iff.mp twinsThen
    exact Org.twins_iff.mpr ⟨id, congrArg Id.mk (inStep.uuidAhead_eq 0),
      inStep.changed_eq twins.changed, owner, status⟩

instance : RenewsTwins User where
  renewal := by
    intro left right loaded other changed otherChanged inStep ring twins twinsThen
    obtain ⟨id, -, -, publicKey, displayName, -, password, status⟩ := User.twins_iff.mp twinsThen
    exact User.twins_iff.mpr ⟨id, congrArg Id.mk (inStep.uuidAhead_eq 0),
      inStep.changed_eq twins.changed, publicKey, displayName, rfl, password, status⟩

namespace Work

section

variable {R : Type}

/-- What a change makes of a record, if it succeeds, and nothing else. -/
def Makes
    (change : R → Work R)
    (edit : R → R) :
    Prop :=
  ∀ record session changed later, (change record).Gives session changed later →
    changed = edit record ∧ later = session

theorem makes_pure (edit : R → R) : Makes (fun record => pure (edit record)) edit :=
  fun _ _ _ _ given => gives_pure.mp given

theorem makes_require
    {ρ : Type}
    (check : R → Except ρ Unit)
    (fault : ρ → Fault)
    (edit : R → R) :
    Makes (fun record => do require (check record) fault; return edit record) edit := by
  intro record session changed later given
  simp only [gives_bind, gives_require, gives_pure] at given
  rcases given with ⟨-, _, ⟨-, rfl⟩, made⟩
  exact made

theorem Makes.looks
    {change : R → Work R}
    {edit : R → R}
    (makes : Makes change edit) :
    LooksAtRecord change :=
  fun record session changed later given => (makes record session changed later given).2

end

variable
  {R : Type}
  [Versioned R]
  {ring : KeyRing}
  {id : Id (Versioned.idKind R)}
  {expected : Signature}
  {edit : R → R}
  {mutation : Mutation R}
  {before after : Session}

/-- What a change that succeeded did to its row and told the trail. -/
structure Tells
    (ring : KeyRing)
    (id : Id (Versioned.idKind R))
    (expected : Signature)
    (edit : R → R)
    (mutation : Mutation R)
    (loaded : R)
    (old new : (Versioned.kind R).Row)
    (before after : Session) :
    Prop where
  replaced : Replaced ⟨Versioned.kind R, id.uuid, expected⟩
    (Versioned.stamp mutation.record).signature mutation.entries old new before.tables
    after.tables
  showsOld : Shows loaded old
  showsNew : Shows mutation.record new
  record : mutation.record = renewal ring before loaded (edit loaded)
  unordered : mutation.entries.map Entry.unordered =
    (changes Versioned.watched loaded mutation.record).map
      (.ofChange loaded mutation.record
        (before.source.clock (before.drawn.clock + 1)).seconds)

theorem mutate_tells
    [Kept R]
    [Quiet R]
    {change : R → Work R}
    (makes : Makes change edit)
    (sound : before.tables.Sound)
    (given : (mutate ring id expected change).Gives before mutation after) :
    ∃ loaded old new, Tells ring id expected edit mutation loaded old new before after := by
  obtain ⟨loaded, changed, written, registered, steps⟩ := mutate_steps makes.looks given
  rcases Kept.overwritten steps.overwrites with ⟨old, new, overwritten⟩
  rcases steps.replaced sound overwritten with ⟨replaced, -⟩
  obtain ⟨rfl, -⟩ := makes _ _ _ _ steps.changes
  rcases register_eq_ok.mp steps.registers with ⟨-, tables⟩
  have numbered : registered.tables.Numbered := by
    rw [tables]
    exact (overwritten.numbered sound).registering _ _ _
  have noted := (note_unordered steps.notes numbered).1
  -- Between the renewal and the noting nothing was read off the clock.
  rcases (Quiet.overwrite ring mutation.record expected).after_eq steps.overwrites with
    ⟨_, _, wrote⟩
  rw [steps.sameDraws, wrote] at noted
  exact ⟨loaded, old, new, {
    replaced
    showsOld := (overwritten.loaded sound steps.found steps.current).2
    showsNew := overwritten.shows
    record := steps.record
    unordered := noted }⟩

/-- Where both operations succeed, the stores look alike afterwards. -/
def KeepAlike
    {α β : Type}
    (work : Work α)
    (other : Work β)
    (left right : Session) :
    Prop :=
  ∀ value after otherValue otherAfter, work.Gives left value after →
    other.Gives right otherValue otherAfter → after.tables.LookAlike otherAfter.tables

/-- Changes that leave twins twins are noted alike. -/
theorem mutate_keepAlike
    [Kept R]
    [Quiet R]
    [RenewsTwins R]
    {change otherChange : R → Work R}
    {otherEdit : R → R}
    {left right : Session}
    (makes : Makes change edit)
    (otherMakes : Makes otherChange otherEdit)
    (keeps : ∀ record other, Twins record other → Twins (edit record) (otherEdit other))
    (inStep : left.InStep right)
    (matched : left.Matched right) :
    (mutate ring id expected change).KeepAlike (mutate ring id expected otherChange) left
      right := by
  intro mutation leftAfter otherMutation rightAfter given otherGiven
  have sound := matched.regular.sound
  have otherSound := matched.otherRegular.sound
  obtain ⟨loaded, old, new, tells⟩ := mutate_tells makes sound given
  obtain ⟨otherLoaded, otherOld, otherNew, otherTells⟩ :=
    mutate_tells otherMakes otherSound otherGiven
  have sameOld : (Versioned.kind R).glimpse old = (Versioned.kind R).glimpse otherOld := by
    have seen := matched.alike.glimpse_row? (Versioned.kind R) id.uuid
    rw [tells.replaced.row?_before, otherTells.replaced.row?_before] at seen
    exact Option.some.inj seen
  have twins := Twins.of_glimpse_eq tells.showsOld otherTells.showsOld sameOld
  have twinsThen : Twins mutation.record otherMutation.record := by
    rw [tells.record, otherTells.record]
    exact RenewsTwins.renewal inStep ring twins (keeps loaded otherLoaded twins)
  have entries : mutation.entries = otherMutation.entries := by
    have consecutive := (mutate_gapless makes.looks sound matched.gapless given).2
    have otherConsecutive :=
      (mutate_gapless otherMakes.looks otherSound matched.otherGapless otherGiven).2
    rw [← matched.alike.trail] at otherConsecutive
    apply consecutive.eq_of_unordered otherConsecutive
    rw [tells.unordered, otherTells.unordered, twins.changes_eq twinsThen, inStep.now_eq,
      twins.ofChange_eq twinsThen]
  have replaced := tells.replaced
  rw [entries] at replaced
  exact matched.alike.replaced sound otherSound replaced otherTells.replaced
    (twinsThen.glimpse_eq tells.showsNew otherTells.showsNew)

section

variable
  {α β γ δ : Type}
  {work : Work α}
  {other : Work β}
  {left right : Session}

theorem KeepAlike.transaction
    (keep : work.KeepAlike other left right) :
    KeepAlike (Work.transaction work) (Work.transaction other) left right := by
  intro value _ otherValue _ given otherGiven
  rcases gives_transaction.mp given with ⟨after, gives, rfl⟩
  rcases gives_transaction.mp otherGiven with ⟨otherAfter, otherGives, rfl⟩
  exact keep value after otherValue otherAfter gives otherGives

theorem KeepAlike.answered
    {answer : α → γ}
    {otherAnswer : β → δ}
    (keep : work.KeepAlike other left right) :
    KeepAlike (do return answer (← work)) (do return otherAnswer (← other)) left right := by
  intro _ after _ otherAfter given otherGiven
  simp only [gives_bind, gives_pure] at given otherGiven
  rcases given with ⟨value, _, gives, -, rfl⟩
  rcases otherGiven with ⟨otherValue, _, otherGives, -, rfl⟩
  exact keep value after otherValue otherAfter gives otherGives

end

end Work

end SealedDirectory
