/-
This file says what each step does to the two locks of a loader at once, the one that a cycle
holds from its start to its end and the one of the shared sink, and to the cycles that claim them.
A step makes one claim, or takes the claims of one cycle or of one task back, and a cycle ends in
one of three ways.
-/
import SecretRenewal.Proofs.Loader.Moves

namespace SecretRenewal.Loader

/-- Whether an action is that a party gives up its cycle. -/
def Action.GivesUp (party : Party) : Action → Prop
  | .abandon host => party = .host host
  | .quit => party = .watcher
  | _ => False

/-- Whether an action begins a cycle. -/
def Action.begins : Action → Bool
  | .begin _ _ | .launch => true
  | _ => false

/-- Whether an action is that a call fails or breaks down. -/
def Action.fails : Action → Bool
  | .tokenReturned _ (.error _) | .readReturned _ (.error _) | .callBroke _ _ => true
  | _ => false

variable {sink : Type}

/-- How a cycle can end: it is given up, a call of it fails, or it gets to write. -/
inductive State.CanEnd (state : State sink) (party : Party) (cycle : Cycle) (action : Action) : Prop
  | gaveUp (gives : action.GivesUp party)
  | failed (fails : action.fails = true) (calling : cycle.stage.isCalling = true)
  | wrote (batch : Staged) (stage : cycle.stage = .staged batch)
      (free : state.mayWrite party cycle.delivery = true)

/-- Who asks for the shared sink: a task that is going to keep it, or a cycle that has everything
and is going to lock it. -/
inductive State.Asks (state : State sink) (action : Action) : SinkClaim → Prop
  | toGuard {host : Nat} (isLock : action = .lockSink host) :
      State.Asks state action (.guarding host)
  | toWrite {party : Party} {cycle : Cycle} {batch : Staged}
      (running : state.cycles party = some cycle) (locking : cycle.delivery = .locking)
      (stage : cycle.stage = .staged batch) : State.Asks state action (.writing party)

/-- What a step does to the cycles and to those who claim a lock. -/
inductive LockStep (state : State sink) (action : Action) (next : State sink) : Prop
  | apart (cycles : next.cycles = state.cycles) (turn : next.turn = state.turn)
      (sinkLock : next.sinkLock = state.sinkLock)
  | begun (party : Party) (delivery : Delivery) (begins : action.begins = true)
      (idle : state.cycles party = none)
      (cycles : next.cycles = Function.update state.cycles party (some { delivery }))
      (turn : next.turn = state.turn.ask party) (sinkLock : next.sinkLock = state.sinkLock)
  | moved (party : Party) (cycle : Cycle) (after : Stage)
      (running : state.cycles party = some cycle) (lacks : ∀ batch, cycle.stage ≠ .staged batch)
      (first : cycle.stage = .queued → state.turn.holder = some party)
      (cycles : next.cycles =
        Function.update state.cycles party (some { cycle with stage := after }))
      (turn : next.turn = state.turn) (sinkLock : next.sinkLock = state.sinkLock)
  | asked (claim : SinkClaim) (fresh : claim ∉ state.sinkLock.claims)
      (asks : state.Asks action claim)
      (cycles : next.cycles = state.cycles) (turn : next.turn = state.turn)
      (sinkLock : next.sinkLock = state.sinkLock.ask claim)
  | unguarded (host : Nat) (isUnlock : action = .unlockSink host)
      (cycles : next.cycles = state.cycles) (turn : next.turn = state.turn)
      (sinkLock : next.sinkLock = state.sinkLock.leave (.guarding host))
  | ended (party : Party) (cycle : Cycle) (running : state.cycles party = some cycle)
      (cause : state.CanEnd party cycle action)
      (cycles : next.cycles = Function.update state.cycles party none)
      (turn : next.turn = state.turn.leave party)
      (sinkLock : next.sinkLock = state.sinkLock.leave (.writing party))

section

variable {state next : State sink} {action : Action} {party : Party} {cycle : Cycle}

theorem LockStep.of_setWatcher (watcher : Watcher) :
    LockStep state action (state.setWatcher watcher) := by
  rw [State.setWatcher_eq]
  exact .apart rfl rfl rfl

theorem LockStep.of_beginCycle (delivery : Delivery) (begins : action.begins = true)
    (idle : state.cycles party = none) :
    LockStep state action (state.beginCycle party delivery) := by
  rw [State.beginCycle_eq]
  exact .begun party delivery begins idle rfl rfl rfl

/-- A cycle that ends leaves both locks, whatever it ends with. -/
theorem LockStep.of_finish (running : state.cycles party = some cycle)
    (cause : state.CanEnd party cycle action) (result : Except LoadError Unit) :
    LockStep state action (state.finish party result) := by
  rw [State.finish_eq]
  exact .ended party cycle running cause rfl rfl rfl

theorem LockStep.of_breakDown (running : state.cycles party = some cycle)
    (cause : state.CanEnd party cycle action) (reason : String) :
    LockStep state action (state.breakDown party reason) := by
  rw [State.breakDown_eq]
  exact .ended party cycle running cause rfl rfl rfl

/-- The step of the locks for each move of a loader. -/
theorem LockStep.of_move [ConfigSink sink] (move : Move state action next) :
    LockStep state action next := by
  cases move with
  | begin idle guarded => exact .of_beginCycle _ rfl idle
  | @enter party cycle active stage turn =>
    rw [State.moveCycle_eq]
    exact .moved party cycle _ (State.cycles_of_active active) (by rw [stage]; nofun)
      (fun _ => turn) rfl rfl rfl
  | @tokenCame party cycle auth active stage =>
    rw [State.moveCycle_eq]
    exact .moved party cycle _ (State.cycles_of_active active) (by rw [stage]; nofun)
      (by rw [stage]; nofun) rfl rfl rfl
  | tokenFailed active stage =>
    exact .of_finish (State.cycles_of_active active) (.failed rfl (by rw [stage]; rfl)) _
  | @tokenTaken party cycle auth active stage =>
    rw [State.moveCycle_eq]
    exact .moved party cycle _ (State.cycles_of_active active) (by rw [stage]; nofun)
      (by rw [stage]; nofun) rfl rfl rfl
  | @secretCame party cycle gathering secret active stage =>
    rw [State.moveCycle_eq]
    exact .moved party cycle _ (State.cycles_of_active active) (by rw [stage]; nofun)
      (by rw [stage]; nofun) rfl rfl rfl
  | secretFailed active stage =>
    exact .of_finish (State.cycles_of_active active) (.failed rfl (by rw [stage]; rfl)) _
  | callBroke active calling =>
    exact .of_breakDown (State.cycles_of_active active) (.failed rfl calling) _
  | askSink active stage toAsk =>
    unfold State.hasToAsk at toAsk
    split at toAsk
    · cases toAsk
    · rename_i locking
      exact .asked _ (of_decide_eq_true toAsk)
        (.toWrite (State.cycles_of_active active) locking stage) rfl rfl rfl
  | @commit party cycle batch active stage free =>
    rw [State.finish_eq]
    exact .ended party cycle (State.cycles_of_active active) (.wrote batch stage free) rfl rfl rfl
  | @writeBroke party cycle batch written reason active stage free short =>
    rw [State.breakDown_eq]
    exact .ended party cycle (State.cycles_of_active active) (.wrote batch stage free) rfl rfl rfl
  | @abandon host cycle running =>
    rw [State.endCycle_eq]
    exact .ended (.host host) cycle running (.gaveUp rfl) rfl rfl rfl
  | arm active phase => exact .of_setWatcher _
  | rearm active phase known unheard => exact .of_setWatcher _
  | due active phase heard reached =>
    rw [State.setWatcher_eq]
    exact .apart rfl rfl rfl
  | resume active phase reached =>
    rw [State.setWatcher_eq]
    exact .apart rfl rfl rfl
  | launch active phase idle => exact .of_beginCycle _ rfl idle
  | requestStop present => exact .of_setWatcher _
  | quitIdle present asked running idle => exact .of_setWatcher _
  | @quitCycle watcher cycle present asked running inCycle =>
    rw [State.setWatcher_eq, State.endCycle_eq]
    exact .ended .watcher cycle inCycle (.gaveUp rfl) rfl rfl rfl
  | lockSink fresh => exact .asked _ fresh (.toGuard rfl) rfl rfl rfl
  | @unlockSink host claimed unused => exact .unguarded host rfl rfl rfl rfl
  | beginWait present kept => exact .of_setWatcher _
  | waitLate present late => exact .apart rfl rfl rfl
  | finishWait present ended taken =>
    rw [State.setWatcher_eq]
    exact .apart rfl rfl rfl
  | dropWait present taken => exact .of_setWatcher _
  | advance later quiet timely => exact .apart rfl rfl rfl

end

end SecretRenewal.Loader
