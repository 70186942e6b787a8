import SealedDirectory.Proofs.Directory.Places
import SealedDirectory.Proofs.Directory.Rising

/-!
# Many handles on one store

Several handles share one store.  Each of them remembers on its own what it has drawn of the
sequences, and one that is opened, or opened again, remembers nothing.  Complete transactions
follow each other on any of the handles: events, and attempts that draw whatever numbers they
like and then fail.

No number of a sequence is handed out twice, whoever gets it and whether or not the
transaction that drew it succeeds.  So places tell the order of commits.
-/

namespace SealedDirectory

/-- A store with the memory of each of its handles. -/
structure Shared where
  tables : Tables
  memory : Nat → Marks
  source : Source
  drawn : Drawn
  /-- The numbers that were handed out to any handle, the latest first. -/
  handed : List (Sequence × Int)

/-- A complete transaction on one of the handles, or something else that a handle does. -/
inductive Call where
  | event (handle : Nat) (event : Event)
  /-- Something that goes by steps is tried in a transaction and then given up with a fault. -/
  | attempt (handle : Nat) (closure : Work Unit) (fault : Fault) (bySteps : closure.BySteps)

namespace Call

def handle : Call → Nat
  | .event handle _ => handle
  | .attempt handle _ _ _ => handle

/-- The session of the handle after a call. -/
def runIn (session : Session) : Call → Session
  | .event _ happens => happens.step session
  | .attempt _ closure fault _ =>
      (Work.runIn (Work.transaction (do closure; throw fault) : Work Unit) session).2

/-- An attempt that draws numbers of any sequences before it fails. -/
def drawing (handle : Nat) (sequences : List Sequence) (fault : Fault) : Call :=
  .attempt handle (Work.drawAll sequences) fault (Work.bySteps_drawAll sequences)

end Call

namespace Shared

/-- A new store on which every handle is opened. -/
def founded (source : Source) : Shared :=
  { tables := Tables.empty.founded, memory := fun _ => .fresh, source, drawn := {}, handed := [] }

/-- The store as one handle sees it. -/
def session (shared : Shared) (handle : Nat) : Session :=
  { tables := shared.tables, marks := shared.memory handle, source := shared.source
    drawn := shared.drawn, handed := shared.handed }

/-- The store after one handle has worked on it; the other handles remember what they did. -/
def resumed (shared : Shared) (handle : Nat) (session : Session) : Shared :=
  { tables := session.tables
    memory := fun other => if other = handle then session.marks else shared.memory other
    source := session.source, drawn := session.drawn, handed := session.handed }

def step (shared : Shared) (call : Call) : Shared :=
  shared.resumed call.handle (call.runIn (shared.session call.handle))

/-- The store after a list of calls, in whatever order the handles make them. -/
def after (shared : Shared) (calls : List Call) : Shared :=
  calls.foldl step shared

/-- The numbers of a sequence that were handed out, in this order. -/
def numbers (shared : Shared) (sequence : Sequence) : List Int :=
  ((shared.handed.filter fun drawn => drawn.1 = sequence).map Prod.snd).reverse

/-! ## Every handle is in order -/

/-- Whichever handle goes on, it finds its session in order. -/
def Ordered (shared : Shared) : Prop :=
  ∀ handle, (shared.session handle).Ordered

theorem ordered_founded (source : Source) : (founded source).Ordered := by
  intro handle
  exact {
    sound := (Tables.rests_founded .empty).sound .empty
    settled := Session.settled_fresh rfl
    stored := fun _ _ handed => by cases handed
    rising := .nil }

variable {shared : Shared}

/-- The other handles see the same store, and they have nothing unsaved either. -/
theorem Ordered.resumed
    (ordered : shared.Ordered)
    {handle : Nat}
    {session : Session}
    (inOrder : session.Ordered) :
    (shared.resumed handle session).Ordered := by
  intro other
  by_cases same : other = handle
  · subst same
    have whole : (shared.resumed other session).session other = session := by
      simp [Shared.session, Shared.resumed]
    rw [whole]
    exact inOrder
  · have settled : ((shared.resumed handle session).session other).Settled := by
      have marks : ((shared.resumed handle session).session other).marks =
          (shared.session other).marks := if_neg same
      have was := (ordered other).settled
      refine ⟨?_, ?_⟩
      · rw [marks]
        exact was.saved
      · rw [marks]
        exact was.natural
    exact ⟨inOrder.sound, settled, inOrder.stored, inOrder.rising⟩

theorem Ordered.step
    (ordered : shared.Ordered)
    (call : Call) :
    (shared.step call).Ordered := by
  apply ordered.resumed
  cases call with
  | event handle event => exact (ordered handle).step event
  | attempt handle closure fault bySteps => exact (ordered handle).attempt bySteps fault

theorem Ordered.after
    (ordered : shared.Ordered)
    (calls : List Call) :
    (shared.after calls).Ordered := by
  induction calls generalizing shared with
  | nil => exact ordered
  | cons call calls ih => exact ih (ordered.step call)

/-- Of the numbers of a sequence every later one is greater. -/
theorem Ordered.pairwise_numbers
    (ordered : shared.Ordered)
    (sequence : Sequence) :
    (shared.numbers sequence).Pairwise (· < ·) := by
  have rising : shared.handed.Pairwise fun later earlier =>
      later.1 = earlier.1 → earlier.2 < later.2 :=
    (ordered 0).rising
  rw [numbers, List.pairwise_reverse, List.pairwise_map, List.pairwise_filter]
  refine rising.imp ?_
  intro later earlier above ofLater ofEarlier
  rw [decide_eq_true_eq] at ofLater ofEarlier
  exact above (ofLater.trans ofEarlier.symm)

/-! ## What calls do to the store -/

theorem evolves_step
    (ordered : shared.Ordered)
    (call : Call) :
    ∃ deeds, Tables.Evolves shared.tables deeds (shared.step call).tables := by
  cases call with
  | event handle event => exact ⟨_, event.evolves (ordered handle).sound⟩
  | attempt handle closure fault bySteps =>
      have undone : (shared.step (.attempt handle closure fault bySteps)).tables =
          (Work.rollback shared.tables (closure.runIn (shared.session handle)).2).tables :=
        congrArg Session.tables (Work.runIn_givenUp closure fault (shared.session handle))
      refine ⟨[], .of_rests ?_⟩
      rw [undone]
      exact Tables.rests_rollback _

theorem evolves_after
    (ordered : shared.Ordered)
    (calls : List Call) :
    ∃ deeds, Tables.Evolves shared.tables deeds (shared.after calls).tables := by
  induction calls generalizing shared with
  | nil => exact ⟨[], .done⟩
  | cons call calls ih =>
      rcases evolves_step ordered call with ⟨first, begins⟩
      rcases ih (ordered.step call) with ⟨rest, ends⟩
      exact ⟨first ++ rest, begins.append ends⟩

end Shared

/-! ## The main statement -/

/--
On a store that any number of handles share, in any order of their calls: the numbers of
each sequence are handed out in strictly rising order, those of transactions that fail
included; in every table the places ascend; and between any two moments records keep their
places, what is stored later has a place after all that was stored before, and the trail
only grows at its end.
-/
theorem numbers_are_handed_out_once (source : Source) (earlier later : List Call) :
    let before := (Shared.founded source).after earlier
    let now := before.after later
    (∀ sequence, (now.numbers sequence).Pairwise (· < ·)) ∧
      now.tables.Ascending ∧ before.tables.Continues now.tables := by
  intro before now
  have founded := Shared.ordered_founded source
  have ordered : before.Ordered := founded.after earlier
  rcases Shared.evolves_after founded earlier with ⟨first, begins⟩
  rcases Shared.evolves_after ordered later with ⟨second, goesOn⟩
  refine ⟨(ordered.after later).pairwise_numbers, ?_, goesOn.continues (ordered 0).sound⟩
  have whole := Tables.Evolves.rests (Tables.rests_founded .empty) (begins.append goesOn)
  exact whole.ascending .empty .empty

/-- Numbers that were drawn in vain are not handed out by another handle. -/
example :
    let calls : List Call :=
      [.drawing 0 [.entity, .trail, .entity] .digestMismatch,
       .drawing 1 [.trail] .digestMismatch, .drawing 0 [.entity] .digestMismatch]
    let now := (Shared.founded Sample.source).after calls
    now.numbers .entity = [1, 2, 3] ∧ now.numbers .trail = [1, 2] := by
  decide +kernel

end SealedDirectory
