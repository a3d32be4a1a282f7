/-
This file says what each step tells the tasks that wait for the end of the background task. There
is one handle to that end. The first task that asks takes it, and through it learns how the
background task ended; a task that gives up waiting loses the handle, and nobody gets it again.
Whoever asks while the handle is not in its place is told at once that all is well. No other step
tells anyone anything, or moves the handle.
-/
import SecretRenewal.Proofs.Loader.Moves

namespace SecretRenewal.Loader

variable {sink : Type}

/-! ### What waiting tasks learn -/

def waitOf? : Nat × Event → Option (Nat × Except LoadError Unit)
  | (_, .waited host outcome) => some (host, outcome)
  | _ => none

namespace State

variable (state : State sink)

/-- What tasks of the program have learnt of the end of the background task, the oldest first. -/
def waits : List (Nat × Except LoadError Unit) := extract waitOf? state.history

/-- Only an event of a wait that ends counts as one. -/
theorem waits_note (event : Event) :
    (state.note event).waits = state.waits ++ (waitOf? (state.now, event)).toList :=
  extract_cons (state.now, event) state.history

/-- Only learning how the background task ended is learning. -/
theorem waits_note_of_other {event : Event} (other : waitOf? (state.now, event) = none) :
    (state.note event).waits = state.waits := by
  rw [waits_note, other]
  exact List.append_nil _

theorem waits_setWatcher (watcher : Watcher) : (state.setWatcher watcher).waits = state.waits :=
  extract_setWatcher (fun _ _ => rfl) state watcher

theorem waits_beginCycle (party : Party) (delivery : Delivery) :
    (state.beginCycle party delivery).waits = state.waits := by
  rw [beginCycle_eq]
  rfl

theorem waits_moveCycle (party : Party) (cycle : Cycle) (stage : Stage) :
    (state.moveCycle party cycle stage).waits = state.waits := by
  unfold waits
  rw [extract_moveCycle]
  cases stage <;> exact List.append_nil _

theorem waits_endCycle (party : Party) : (state.endCycle party).waits = state.waits := by
  rw [endCycle_eq]
  rfl

/-- A cycle that ends tells nobody how the background task ended. -/
theorem waits_finish (party : Party) (result : Except LoadError Unit) :
    (state.finish party result).waits = state.waits :=
  (extract_finish (fun _ _ => rfl) state party result).trans (List.append_nil _)

theorem waits_breakDown (party : Party) (reason : String) :
    (state.breakDown party reason).waits = state.waits :=
  (extract_breakDown state party reason).trans (List.append_nil _)

theorem waits_write [ConfigSink sink] (target : Target) (entries : List (String × Json)) :
    (state.write target entries).waits = state.waits :=
  extract_write (fun _ _ _ _ => rfl) state target entries

theorem waits_commit [ConfigSink sink] (party : Party) (target : Target) (batch : Staged) :
    (state.commit party target batch).waits = state.waits := by
  unfold commit
  rw [waits_note_of_other _ rfl]
  exact waits_write state target batch.entries

end State

/-! ### Who has the handle -/

/-- A cycle that ends leaves the handle where it is. -/
theorem Watcher.handle_afterCycle (watcher : Watcher) (settings : LoaderSettings) (now : Nat)
    (attempt : UInt32) (result : Except LoadError Unit) :
    (watcher.afterCycle settings now attempt result).handle = watcher.handle := by
  unfold afterCycle
  split
  · rfl
  · rfl
  · split <;> rfl

namespace State

variable (state : State sink)

/-- Who may learn how the background task ends. -/
def handle? : Option Handle := state.watcher.map Watcher.handle

theorem handle?_of_present {state : State sink} {watcher : Watcher}
    (present : state.watcher = some watcher) : state.handle? = some watcher.handle :=
  congrArg (Option.map Watcher.handle) present

theorem handle?_setWatcher (watcher : Watcher) :
    (state.setWatcher watcher).handle? = some watcher.handle :=
  handle?_of_present (watcher_setWatcher state watcher)

theorem handle?_finish (party : Party) (result : Except LoadError Unit) :
    (state.finish party result).handle? = state.handle? := by
  unfold handle?
  rw [watcher_finish]
  unfold watcherAfter
  split
  · rename_i watcher present
    rw [present]
    split
    · exact congrArg some (watcher.handle_afterCycle ..)
    · rfl
  · rfl

/-- A cycle that breaks down leaves the handle with whoever had it. -/
theorem handle?_breakDown (party : Party) (reason : String) :
    (state.breakDown party reason).handle? = state.handle? := by
  unfold handle?
  rw [watcher_breakDown]
  cases party with
  | host number => rfl
  | watcher =>
    rw [watcherBroken, Option.map_map]
    rfl

end State

/-! ### Steps -/

/-- The task that begins to wait, learns how the background task ended or gives up waiting. -/
def Action.waiter? : Action → Option Nat
  | .beginWait host | .finishWait host | .dropWait host => some host
  | _ => none

/-- What a step tells the tasks that wait, and what it does to the handle. -/
inductive WaitStep (state : State sink) : Action → State sink → Prop
  | apart {action : Action} {next : State sink} (noWait : action.waiter? = none)
      (handle : next.handle? = state.handle?) (waits : next.waits = state.waits) :
      WaitStep state action next
  | began {host : Nat} {next : State sink} (kept : state.handle? = some .kept)
      (taken : next.handle? = some (.taken host)) (waits : next.waits = state.waits) :
      WaitStep state (.beginWait host) next
  | late {host : Nat} {handle : Handle} {next : State sink} (isHandle : state.handle? = some handle)
      (late : handle ≠ .kept) (same : next.handle? = state.handle?)
      (waits : next.waits = state.waits ++ [(host, .ok ())]) :
      WaitStep state (.beginWait host) next
  | learnt {host : Nat} {watcher : Watcher} {outcome : Except LoadError Unit} {next : State sink}
      (present : state.watcher = some watcher) (isOver : watcher.phase.outcome? = some outcome)
      (taken : state.handle? = some (.taken host)) (gone : next.handle? = some .gone)
      (waits : next.waits = state.waits ++ [(host, outcome)]) :
      WaitStep state (.finishWait host) next
  | gaveUp {host : Nat} {next : State sink} (taken : state.handle? = some (.taken host))
      (gone : next.handle? = some .gone) (waits : next.waits = state.waits) :
      WaitStep state (.dropWait host) next

section

variable [ConfigSink sink] {state next : State sink} {action : Action}

/-- Only those who wait for the background task change who may learn of its end. -/
theorem Move.handle?_eq (move : Move state action next) (noWait : action.waiter? = none) :
    next.handle? = state.handle? := by
  have keeps {watcher after : Watcher} (present : state.watcher = some watcher)
      (same : after.handle = watcher.handle) :
      (state.setWatcher after).handle? = state.handle? := by
    rw [State.handle?_setWatcher, State.handle?_of_present present, same]
  cases move with
  | begin idle guarded =>
    rw [State.beginCycle_eq]
    rfl
  | enter active stage turn =>
    rw [State.moveCycle_eq]
    rfl
  | tokenCame active stage =>
    rw [State.moveCycle_eq]
    rfl
  | tokenFailed active stage => exact State.handle?_finish ..
  | tokenTaken active stage =>
    rw [State.moveCycle_eq]
    rfl
  | secretCame active stage =>
    rw [State.moveCycle_eq]
    rfl
  | secretFailed active stage => exact State.handle?_finish ..
  | callBroke active calling => exact State.handle?_breakDown ..
  | askSink active stage toAsk => rfl
  | commit active stage free => exact State.handle?_finish ..
  | writeBroke active stage free short => exact State.handle?_breakDown ..
  | abandon running =>
    rw [State.endCycle_eq]
    rfl
  | arm present phase => exact keeps present rfl
  | rearm active phase known unheard => exact keeps (State.watcher_of_active active) rfl
  | due active phase heard reached => exact keeps (State.watcher_of_active active) rfl
  | resume active phase reached => exact keeps (State.watcher_of_active active) rfl
  | launch active phase idle =>
    rw [State.beginCycle_eq]
    rfl
  | requestStop present => rw [State.handle?_setWatcher, State.handle?_of_present present]
  | quitIdle present asked running idle =>
    rw [State.handle?_setWatcher, State.handle?_of_present present]
  | quitCycle present asked running inCycle =>
    rw [State.handle?_setWatcher, State.handle?_of_present present]
  | lockSink fresh => rfl
  | unlockSink claimed unused => rfl
  | advance later quiet timely => rfl
  | beginWait present kept => cases noWait
  | waitLate present late => cases noWait
  | finishWait present ended taken => cases noWait
  | dropWait present taken => cases noWait

theorem Move.waits_eq_of_noWait (move : Move state action next) (noWait : action.waiter? = none) :
    next.waits = state.waits := by
  cases move with
  | begin idle guarded => exact State.waits_beginCycle ..
  | enter active stage turn =>
    exact (State.waits_note_of_other _ rfl).trans (State.waits_moveCycle ..)
  | tokenCame active stage =>
    exact (State.waits_note_of_other _ rfl).trans
      ((State.waits_note_of_other _ rfl).trans (State.waits_moveCycle ..))
  | tokenFailed active stage => exact State.waits_finish ..
  | tokenTaken active stage => exact State.waits_moveCycle ..
  | secretCame active stage =>
    exact (State.waits_moveCycle ..).trans (State.waits_note_of_other _ rfl)
  | secretFailed active stage => exact State.waits_finish ..
  | callBroke active calling => exact State.waits_breakDown ..
  | askSink active stage toAsk => rfl
  | commit active stage free => exact (State.waits_finish ..).trans (State.waits_commit ..)
  | writeBroke active stage free short =>
    exact (State.waits_breakDown ..).trans (State.waits_write ..)
  | abandon running => exact (State.waits_note_of_other _ rfl).trans (State.waits_endCycle ..)
  | arm active phase => exact State.waits_setWatcher ..
  | rearm active phase known unheard => exact State.waits_setWatcher ..
  | due active phase heard reached =>
    exact (State.waits_note_of_other _ rfl).trans (State.waits_setWatcher ..)
  | resume active phase reached =>
    exact (State.waits_note_of_other _ rfl).trans (State.waits_setWatcher ..)
  | launch active phase idle => exact State.waits_beginCycle ..
  | requestStop present => exact State.waits_setWatcher ..
  | quitIdle present asked running idle => exact State.waits_setWatcher ..
  | quitCycle present asked running inCycle =>
    exact (State.waits_setWatcher ..).trans
      ((State.waits_note_of_other _ rfl).trans (State.waits_endCycle ..))
  | lockSink fresh => rfl
  | unlockSink claimed unused => rfl
  | advance later quiet timely => rfl
  | beginWait present kept => cases noWait
  | waitLate present late => cases noWait
  | finishWait present ended taken => cases noWait
  | dropWait present taken => cases noWait

/-- Every step is apart from waits, or begins, ends or drops one. -/
theorem WaitStep.of_move (move : Move state action next) : WaitStep state action next := by
  cases waiter : action.waiter? with
  | none => exact .apart waiter (move.handle?_eq waiter) (move.waits_eq_of_noWait waiter)
  | some host =>
    cases move with
    | beginWait present kept =>
      exact .began (by rw [State.handle?_of_present present, kept])
        (State.handle?_setWatcher ..) (State.waits_setWatcher ..)
    | waitLate present late =>
      exact .late (State.handle?_of_present present) late rfl (State.waits_note ..)
    | finishWait present ended taken =>
      refine .learnt present ended (by rw [State.handle?_of_present present, taken])
        (State.handle?_setWatcher ..) ?_
      rw [State.waits_note, State.waits_setWatcher]
      rfl
    | dropWait present taken =>
      exact .gaveUp (by rw [State.handle?_of_present present, taken])
        (State.handle?_setWatcher ..) (State.waits_setWatcher ..)
    | _ => cases waiter

/-- A task that waits learns how the background task has ended, or that all is well. -/
theorem Move.waits_eq (move : Move state action next) :
    next.waits = state.waits ∨ ∃ host outcome, next.waits = state.waits ++ [(host, outcome)] ∧
      (outcome = .ok () ∨
        ∃ watcher, state.watcher = some watcher ∧ watcher.phase.outcome? = some outcome) := by
  cases WaitStep.of_move move with
  | apart noWait handle waits => exact .inl waits
  | began kept taken waits => exact .inl waits
  | late isHandle late same waits => exact .inr ⟨_, _, waits, .inl rfl⟩
  | learnt present isOver taken gone waits =>
    exact .inr ⟨_, _, waits, .inr ⟨_, present, isOver⟩⟩
  | gaveUp taken gone waits => exact .inl waits

end

end SecretRenewal.Loader
