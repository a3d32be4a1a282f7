/-
This file proves that tokens do not leak. To blank a loader is to forget every token in it, and to
blank an action is to forget the token that it brings. Blanking goes with every step: whether an
action can happen, and what it makes of a blanked loader, can be told without the tokens. So two
runs that differ in nothing but their tokens come to loaders that differ in nothing but theirs,
and whatever is seen of one is seen of the other.
-/
import SecretRenewal.Loader.Foreground
import SecretRenewal.Proofs.Loader.Turns
import SecretRenewal.Proofs.Loader.Waits

namespace SecretRenewal.Loader

/-! ### Forgetting tokens -/

/-- A token with nothing but its lease. -/
def blankToken (auth : AuthToken) : AuthToken := { auth with token := "" }

/-- A token that the store may hold, of which only remains whether there is one. -/
def blankHeld (held : Option String) : Option String := held.map fun _ => ""

def Action.blanked : Action → Action
  | .tokenReturned party (.ok auth) => .tokenReturned party (.ok (blankToken auth))
  | action => action

def Event.blanked : Event → Event
  | .handed party _ => .handed party ""
  | .read party path presented => .read party path (blankHeld presented)
  | event => event

def Stage.blanked : Stage → Stage
  | .handingOver auth => .handingOver (blankToken auth)
  | stage => stage

def Cycle.blanked (cycle : Cycle) : Cycle := { cycle with stage := cycle.stage.blanked }

/-- What has happened, without the tokens. -/
def blankHistory (history : List (Nat × Event)) : List (Nat × Event) :=
  history.map fun entry => (entry.1, entry.2.blanked)

variable {sink : Type}

def State.blanked (state : State sink) : State sink :=
  { state with
    storeToken := blankHeld state.storeToken
    cycles := fun party => (state.cycles party).map Cycle.blanked
    history := blankHistory state.history }

/-! ### Operations -/

namespace State

variable (state : State sink) (party : Party)

/-- What happens is noted, and the token in it is forgotten. -/
theorem blanked_note (event : Event) :
    (state.note event).blanked = state.blanked.note event.blanked := rfl

/-- The background task has no token to forget. -/
theorem blanked_setWatcher (watcher : Watcher) :
    (state.setWatcher watcher).blanked = state.blanked.setWatcher watcher := by
  unfold setWatcher
  simp only
  split
  · rename_i same
    exact (if_pos same).symm
  · rename_i changed
    exact (if_neg changed).symm

theorem blanked_setCycle (cycle : Option Cycle) :
    (state.setCycle party cycle).blanked =
      state.blanked.setCycle party (cycle.map Cycle.blanked) := by
  unfold setCycle blanked
  congr 1
  funext other
  exact apply_ite (Option.map Cycle.blanked) ..

theorem blanked_beginCycle (delivery : Delivery) :
    (state.beginCycle party delivery).blanked = state.blanked.beginCycle party delivery := by
  have cycle := state.blanked_setCycle party (some { delivery })
  unfold beginCycle
  rw [show (some { delivery } : Option Cycle).map Cycle.blanked = some { delivery } from rfl]
    at cycle
  rw [← cycle]
  rfl

/-- A cycle that gets to a stage forgets its token there, and the call that the stage begins with
forgets the token that it presents. -/
theorem blanked_moveCycle (cycle : Cycle) (stage : Stage) :
    (state.moveCycle party cycle stage).blanked =
      state.blanked.moveCycle party cycle.blanked stage.blanked := by
  have moved := state.blanked_setCycle party (some { cycle with stage })
  unfold moveCycle
  cases stage with
  | reading gathering =>
    simp only [blanked_note, moved]
    rfl
  | _ => exact moved

theorem blanked_endCycle :
    (state.endCycle party).blanked = state.blanked.endCycle party := by
  have ended := state.blanked_setCycle party none
  unfold endCycle
  rw [Option.map_none] at ended
  rw [← ended]
  rfl

/-- A cycle ends with a result, and that has no token in it. -/
theorem blanked_finish (result : Except LoadError Unit) :
    (state.finish party result).blanked = state.blanked.finish party result := by
  have ended : ((state.endCycle party).note (.finished party result)).blanked =
      (state.blanked.endCycle party).note (.finished party result) := by
    rw [blanked_note, blanked_endCycle]
    rfl
  unfold finish
  rw [show state.blanked.watcher = state.watcher from rfl]
  cases party with
  | host number => exact ended
  | watcher =>
    cases state.watcher with
    | none => exact ended
    | some watcher =>
      cases phase : watcher.phase with
      | refreshing attempt =>
        simp only [phase]
        rw [blanked_setWatcher, ended]
        rfl
      | _ => simp only [phase]; exact ended

/-- A cycle breaks down in the same way whatever token it has. -/
theorem blanked_breakDown (reason : String) :
    (state.breakDown party reason).blanked = state.blanked.breakDown party reason := by
  have ended : ((state.endCycle party).note (.brokeDown party reason)).blanked =
      (state.blanked.endCycle party).note (.brokeDown party reason) := by
    rw [blanked_note, blanked_endCycle]
    rfl
  unfold breakDown
  rw [show state.blanked.watcher = state.watcher from rfl]
  cases party with
  | host number => exact ended
  | watcher =>
    cases state.watcher with
    | none => exact ended
    | some watcher => exact (blanked_setWatcher ..).trans (congrArg (setWatcher · _) ended)

/-- Nothing that is written to a sink is a token. -/
theorem blanked_write [ConfigSink sink] (target : Target) (entries : List (String × Json)) :
    (state.write target entries).blanked = state.blanked.write target entries := by
  unfold write blanked blankHistory
  simp only [List.map_append, List.map_map]
  congr 2

theorem blanked_commit [ConfigSink sink] (target : Target) (staged : Staged) :
    (state.commit party target staged).blanked = state.blanked.commit party target staged := by
  unfold commit
  rw [blanked_note, ← blanked_write]
  rfl

/-! ### Who can go on -/

/-- Whether a cycle can go on does not depend on its token. -/
theorem blanked_activeCycle? :
    state.blanked.activeCycle? party = (state.activeCycle? party).map Cycle.blanked := by
  unfold activeCycle?
  rw [show state.blanked.mayAct party = state.mayAct party from rfl]
  split <;> rfl

theorem blanked_isTurnedToCycle (watcher : Watcher) :
    state.blanked.isTurnedToCycle watcher = state.isTurnedToCycle watcher := by
  unfold isTurnedToCycle
  split
  · exact Option.isNone_map
  · rfl

/-- Which cycles have something to do can be told without the tokens. -/
theorem blanked_cycleReady : state.blanked.cycleReady party = state.cycleReady party := by
  unfold cycleReady
  rw [blanked_activeCycle?]
  cases state.activeCycle? party with
  | none => rfl
  | some cycle =>
    obtain ⟨delivery, stage⟩ := cycle
    cases stage <;> rfl

/-- Whether nothing is left to do but to wait can be told without the tokens. -/
theorem blanked_quiet : state.blanked.quiet = state.quiet := by
  have cycles : state.blanked.cycleReady = state.cycleReady := funext state.blanked_cycleReady
  have watcher : state.blanked.watcherReady = state.watcherReady := by
    unfold watcherReady
    simp only [blanked_isTurnedToCycle]
    rfl
  unfold quiet
  rw [cycles, watcher]
  rfl

end State

/-! ### Steps -/

/-- Once the store has taken over its token, a cycle has none any more. -/
theorem Stage.blanked_afterToken (secrets : List SecretDescriptor) (lease : Duration) :
    (afterToken secrets lease).blanked = afterToken secrets lease := by
  cases secrets <;> rfl

theorem Stage.blanked_afterRead (gathering : Gathering) (secret : Secret) :
    (afterRead gathering secret).blanked = afterRead gathering secret := by
  unfold afterRead
  simp only
  split <;> rfl

namespace State

variable (state : State sink) (party : Party)

theorem blanked_begin? (host : Nat) (delivery : Delivery) :
    (state.begin? host delivery).map blanked = state.blanked.begin? host delivery := by
  unfold begin?
  rw [show (state.blanked.cycles (.host host)).isSome = (state.cycles (.host host)).isSome from
    Option.isSome_map]
  split
  · rfl
  · rw [show state.blanked.sinkLock = state.sinkLock from rfl]
    split
    · rfl
    · exact congrArg some (state.blanked_beginCycle (.host host) delivery)

theorem blanked_enter? : (state.enter? party).map blanked = state.blanked.enter? party := by
  unfold enter?
  rw [blanked_activeCycle?]
  cases state.activeCycle? party with
  | none => rfl
  | some cycle =>
    obtain ⟨delivery, stage⟩ := cycle
    cases stage with
    | queued =>
      show Option.map _ (if _ then _ else _) = if state.turn.isHeldBy party then _ else _
      split
      · exact congrArg (fun moved => some (moved.note (.asked party)))
          (state.blanked_moveCycle party ⟨delivery, .queued⟩ .authenticating)
      · rfl
    | _ => rfl

/-- Of an answer that brings a token only the token is forgotten; an error has none. -/
theorem blanked_tokenReturned? (answer : Except LoadError AuthToken) :
    (state.tokenReturned? party answer).map blanked =
      state.blanked.tokenReturned? party (answer.map blankToken) := by
  unfold tokenReturned?
  rw [blanked_activeCycle?]
  cases state.activeCycle? party with
  | none => rfl
  | some cycle =>
    obtain ⟨delivery, stage⟩ := cycle
    cases stage with
    | authenticating =>
      cases answer with
      | ok auth =>
        exact congrArg (fun moved => some ((moved.note (.leased party auth.lease)).note
          (.handed party "")))
          (state.blanked_moveCycle party ⟨delivery, .authenticating⟩ (.handingOver auth))
      | error error => exact congrArg some (state.blanked_finish party (.error error))
    | _ => cases answer <;> rfl

/-- The store takes over a token, of which remains that there is one. -/
theorem blanked_tokenTaken? :
    (state.tokenTaken? party).map blanked = state.blanked.tokenTaken? party := by
  unfold tokenTaken?
  rw [blanked_activeCycle?]
  cases state.activeCycle? party with
  | none => rfl
  | some cycle =>
    obtain ⟨delivery, stage⟩ := cycle
    cases stage with
    | handingOver auth =>
      have moved := State.blanked_moveCycle { state with storeToken := some auth.token } party
        ⟨delivery, .handingOver auth⟩ (.afterToken state.settings.secrets auth.lease)
      rw [Stage.blanked_afterToken] at moved
      exact congrArg some moved
    | _ => rfl

/-- What is read is staged in the same way whatever token it was asked for with. -/
theorem blanked_readReturned? (answer : Except LoadError Secret) :
    (state.readReturned? party answer).map blanked =
      state.blanked.readReturned? party answer := by
  unfold readReturned?
  rw [blanked_activeCycle?]
  cases state.activeCycle? party with
  | none => rfl
  | some cycle =>
    obtain ⟨delivery, stage⟩ := cycle
    cases stage with
    | reading gathering =>
      cases answer with
      | ok secret =>
        have moved := (state.note (.leased party secret.lease)).blanked_moveCycle party
          ⟨delivery, .reading gathering⟩ (.afterRead gathering secret)
        rw [Stage.blanked_afterRead] at moved
        exact congrArg some moved
      | error error => exact congrArg some (state.blanked_finish party (.error error))
    | _ => cases answer <;> rfl

theorem blanked_callBroke? (reason : String) :
    (state.callBroke? party reason).map blanked = state.blanked.callBroke? party reason := by
  unfold callBroke?
  rw [blanked_activeCycle?]
  cases state.activeCycle? party with
  | none => rfl
  | some cycle =>
    obtain ⟨delivery, stage⟩ := cycle
    cases stage with
    | queued => rfl
    | staged batch => rfl
    | _ => exact congrArg some (state.blanked_breakDown party reason)

theorem blanked_askSink? : (state.askSink? party).map blanked = state.blanked.askSink? party := by
  unfold askSink?
  rw [blanked_activeCycle?]
  cases state.activeCycle? party with
  | none => rfl
  | some cycle =>
    obtain ⟨delivery, stage⟩ := cycle
    cases stage with
    | staged batch => exact apply_ite (Option.map blanked) ..
    | _ => rfl

/-- A commit writes what is staged, and no token is staged. -/
theorem blanked_commit? [ConfigSink sink] :
    (state.commit? party).map blanked = state.blanked.commit? party := by
  unfold commit?
  rw [blanked_activeCycle?]
  cases state.activeCycle? party with
  | none => rfl
  | some cycle =>
    obtain ⟨delivery, stage⟩ := cycle
    cases stage with
    | staged batch =>
      show Option.map _ (if _ then _ else _) = if state.mayWrite party delivery then _ else _
      split
      · refine congrArg some ((blanked_finish ..).trans ?_)
        rw [blanked_commit]
        rfl
      · rfl
    | _ => rfl

theorem blanked_writeBroke? [ConfigSink sink] (written : Nat) (reason : String) :
    (state.writeBroke? party written reason).map blanked =
      state.blanked.writeBroke? party written reason := by
  unfold writeBroke?
  rw [blanked_activeCycle?]
  cases state.activeCycle? party with
  | none => rfl
  | some cycle =>
    obtain ⟨delivery, stage⟩ := cycle
    cases stage with
    | staged batch =>
      show Option.map _ (if _ then _ else _) =
        if state.mayWrite party delivery && decide (written < batch.entries.length) then _ else _
      split
      · refine congrArg some ((blanked_breakDown ..).trans ?_)
        rw [blanked_write]
        rfl
      · rfl
    | _ => rfl

theorem blanked_abandon? (host : Nat) :
    (state.abandon? host).map blanked = state.blanked.abandon? host := by
  unfold abandon?
  rw [show (state.blanked.cycles (.host host)).isSome = (state.cycles (.host host)).isSome from
    Option.isSome_map]
  split
  · exact congrArg (fun ended => some (ended.note (.abandoned (.host host))))
      (state.blanked_endCycle (.host host))
  · rfl

/-- A timer is set by the interval and the clock. -/
theorem blanked_arm? : state.arm?.map blanked = state.blanked.arm? := by
  unfold arm?
  rw [show state.blanked.watcher = state.watcher from rfl]
  cases state.watcher with
  | none => rfl
  | some watcher =>
    obtain ⟨phase, published, stopRequested, handle⟩ := watcher
    cases phase with
    | starting => exact congrArg some (state.blanked_setWatcher _)
    | _ => rfl

theorem blanked_rearm? : state.rearm?.map blanked = state.blanked.rearm? := by
  unfold rearm?
  rw [show state.blanked.watcher = state.watcher from rfl,
    show state.blanked.interval = state.interval from rfl]
  cases state.watcher with
  | none => rfl
  | some watcher =>
    cases state.interval with
    | none => rfl
    | some interval =>
      cases phase : watcher.phase with
      | waiting alarm =>
        simp only [Option.bind_eq_bind, Option.bind_some, phase]
        rw [apply_ite (Option.map blanked), Option.map_some, blanked_setWatcher]
        rfl
      | _ => simp only [Option.bind_eq_bind, Option.bind_some, phase]; rfl

theorem blanked_due? : state.due?.map blanked = state.blanked.due? := by
  unfold due?
  rw [show state.blanked.watcher = state.watcher from rfl]
  cases state.watcher with
  | none => rfl
  | some watcher =>
    cases phase : watcher.phase with
    | waiting alarm =>
      simp only [Option.bind_eq_bind, Option.bind_some, phase]
      rw [apply_ite (Option.map blanked), Option.map_some, blanked_note, blanked_setWatcher]
      rfl
    | _ => simp only [Option.bind_eq_bind, Option.bind_some, phase]; rfl

theorem blanked_resume? : state.resume?.map blanked = state.blanked.resume? := by
  unfold resume?
  rw [show state.blanked.activeWatcher? = state.activeWatcher? from rfl]
  cases state.activeWatcher? with
  | none => rfl
  | some watcher =>
    obtain ⟨phase, published, stopRequested, handle⟩ := watcher
    cases phase with
    | pausing attempt wake =>
      show Option.map _ (if _ then _ else _) = if wake ≤ state.now then _ else _
      split
      · exact congrArg (fun changed => some (changed.note .turned)) (state.blanked_setWatcher _)
      · rfl
    | _ => rfl

/-- The background task begins its cycle whatever token the store holds. -/
theorem blanked_launch? : state.launch?.map blanked = state.blanked.launch? := by
  unfold launch?
  rw [show state.blanked.activeWatcher? = state.activeWatcher? from rfl]
  cases state.activeWatcher? with
  | none => rfl
  | some watcher =>
    simp only [Option.bind_eq_bind, Option.bind_some, blanked_isTurnedToCycle]
    split
    · exact congrArg some (state.blanked_beginCycle .watcher .locking)
    · rfl

theorem blanked_requestStop? : state.requestStop?.map blanked = state.blanked.requestStop? := by
  unfold requestStop?
  rw [show state.blanked.watcher = state.watcher from rfl]
  cases state.watcher with
  | none => rfl
  | some watcher => exact congrArg some (state.blanked_setWatcher _)

/-- A background task that ends gives up its cycle, the token in it included. -/
theorem blanked_quit? : state.quit?.map blanked = state.blanked.quit? := by
  unfold quit?
  rw [show state.blanked.watcher = state.watcher from rfl]
  cases state.watcher with
  | none => rfl
  | some watcher =>
    simp only [Option.bind_eq_bind, Option.bind_some]
    rw [show (state.blanked.cycles .watcher).isSome = (state.cycles .watcher).isSome from
      Option.isSome_map, show state.blanked.commits = state.commits from rfl,
      show state.blanked.now = state.now from rfl]
    split
    · refine congrArg some ((blanked_setWatcher ..).trans (congrArg (setWatcher · _) ?_))
      split
      · rw [blanked_note, blanked_endCycle]
        rfl
      · rfl
    · rfl

theorem blanked_lockSink? (host : Nat) :
    (state.lockSink? host).map blanked = state.blanked.lockSink? host :=
  apply_ite (Option.map blanked) ..

theorem blanked_unlockSink? (host : Nat) :
    (state.unlockSink? host).map blanked = state.blanked.unlockSink? host := by
  have deliveries : (state.blanked.cycles (.host host)).any
        (fun cycle => cycle.delivery == .direct .shared) =
      (state.cycles (.host host)).any fun cycle => cycle.delivery == .direct .shared :=
    Option.any_map ..
  unfold unlockSink?
  rw [deliveries]
  exact apply_ite (Option.map blanked) ..

theorem blanked_beginWait? (host : Nat) :
    (state.beginWait? host).map blanked = state.blanked.beginWait? host := by
  unfold beginWait?
  rw [show state.blanked.watcher = state.watcher from rfl]
  cases state.watcher with
  | none => rfl
  | some watcher =>
    obtain ⟨phase, published, stopRequested, handle⟩ := watcher
    cases handle with
    | kept => exact congrArg some (state.blanked_setWatcher _)
    | _ => rfl

/-- How the background task ended is told without a token. -/
theorem blanked_finishWait? (host : Nat) :
    (state.finishWait? host).map blanked = state.blanked.finishWait? host := by
  unfold finishWait?
  rw [show state.blanked.watcher = state.watcher from rfl]
  cases state.watcher with
  | none => rfl
  | some watcher =>
    simp only [Option.bind_eq_bind, Option.bind_some]
    cases watcher.phase.outcome? with
    | none => rfl
    | some outcome =>
      simp only [Option.bind_some]
      split
      · exact congrArg (fun changed => some (changed.note (.waited host outcome)))
          (state.blanked_setWatcher _)
      · rfl

theorem blanked_dropWait? (host : Nat) :
    (state.dropWait? host).map blanked = state.blanked.dropWait? host := by
  unfold dropWait?
  rw [show state.blanked.watcher = state.watcher from rfl]
  cases state.watcher with
  | none => rfl
  | some watcher =>
    simp only [Option.bind_eq_bind, Option.bind_some]
    split
    · exact congrArg some (state.blanked_setWatcher _)
    · rfl

/-- Time passes when it would without the tokens. -/
theorem blanked_advance? (time : Nat) :
    (state.advance? time).map blanked = state.blanked.advance? time := by
  unfold advance?
  rw [blanked_quiet]
  exact apply_ite (Option.map blanked) ..

variable [ConfigSink sink]

/-- Blanking goes with every step. -/
theorem blanked_step? (action : Action) :
    (state.step? action).map blanked = state.blanked.step? action.blanked := by
  cases action with
  | begin host delivery => exact state.blanked_begin? host delivery
  | enter party => exact state.blanked_enter? party
  | tokenReturned party answer =>
    cases answer <;> exact state.blanked_tokenReturned? party _
  | tokenTaken party => exact state.blanked_tokenTaken? party
  | readReturned party answer => exact state.blanked_readReturned? party answer
  | callBroke party reason => exact state.blanked_callBroke? party reason
  | askSink party => exact state.blanked_askSink? party
  | commit party => exact state.blanked_commit? party
  | writeBroke party written reason => exact state.blanked_writeBroke? party written reason
  | abandon host => exact state.blanked_abandon? host
  | arm => exact state.blanked_arm?
  | rearm => exact state.blanked_rearm?
  | due => exact state.blanked_due?
  | resume => exact state.blanked_resume?
  | launch => exact state.blanked_launch?
  | requestStop => exact state.blanked_requestStop?
  | quit => exact state.blanked_quit?
  | lockSink host => exact state.blanked_lockSink? host
  | unlockSink host => exact state.blanked_unlockSink? host
  | beginWait host => exact state.blanked_beginWait? host
  | finishWait host => exact state.blanked_finishWait? host
  | dropWait host => exact state.blanked_dropWait? host
  | advance time => exact state.blanked_advance? time

/-- Blanking goes with whole runs. -/
theorem blanked_run? (actions : List Action) :
    (state.run? actions).map blanked = state.blanked.run? (actions.map Action.blanked) := by
  induction actions generalizing state with
  | nil => rfl
  | cons action rest inductionHypothesis =>
    rw [List.map_cons, run?, run?, ← blanked_step?]
    cases state.step? action with
    | none => rfl
    | some next => exact inductionHypothesis next

end State

/-! ### What can be seen -/

/-- How a cycle ended last is the same without the tokens. -/
theorem State.lastResult?_blanked (state : State sink) (party : Party) :
    state.blanked.lastResult? party = state.lastResult? party := by
  unfold lastResult?
  rw [show state.blanked.history = blankHistory state.history from rfl, blankHistory,
    List.findSome?_map]
  congr 1
  funext entry
  obtain ⟨time, event⟩ := entry
  cases event <;> rfl

theorem State.waits_blanked (state : State sink) : state.blanked.waits = state.waits := by
  unfold waits extract
  rw [show state.blanked.history = blankHistory state.history from rfl, blankHistory,
    List.filterMap_map]
  congr 2
  funext entry
  obtain ⟨time, event⟩ := entry
  cases event <;> rfl

/-- The token that an action brings, as it is shown. -/
def Action.shownToken? : Action → Option String
  | .tokenReturned _ (.ok auth) => some auth.shown
  | _ => none

theorem Action.shownToken?_blanked (action : Action) :
    action.blanked.shownToken? = action.shownToken? := by
  cases action with
  | tokenReturned party answer => cases answer <;> rfl
  | _ => rfl

/-- Tokens are shown in the same way whatever they are. -/
theorem shownTokens_blanked (actions : List Action) :
    (actions.map Action.blanked).filterMap Action.shownToken? =
      actions.filterMap Action.shownToken? := by
  rw [List.filterMap_map]
  exact congrArg (List.filterMap · actions) (funext Action.shownToken?_blanked)

/-- What of a run does not depend on its tokens. -/
structure SeenAlike (actions others : List Action) (state other : State sink) : Prop where
  sinks : other.sinks = state.sinks
  interval : other.interval = state.interval
  lastRefresh : other.lastRefresh = state.lastRefresh
  /-- The background task is in the same phase and has told the same about itself. -/
  watcher : other.watcher = state.watcher
  /-- The same things have happened at the same times. -/
  history : blankHistory other.history = blankHistory state.history
  results : ∀ party, other.lastResult? party = state.lastResult? party
  waits : other.waits = state.waits
  shown : other.settings.shown other.interval = state.settings.shown state.interval
  shownTokens : others.filterMap Action.shownToken? = actions.filterMap Action.shownToken?

/-- Where a run is possible, so is any that differs from it in nothing but its tokens, and what can
be seen of the two, other than the tokens handed to the store, is the same. -/
theorem tokens_do_not_leak [ConfigSink sink] {settings : LoaderSettings} {sinks : Target → sink}
    {actions others : List Action} {state : State sink}
    (same : others.map Action.blanked = actions.map Action.blanked)
    (run : (State.start settings sinks).run? actions = some state) :
    ∃ other, (State.start settings sinks).run? others = some other ∧
      SeenAlike actions others state other := by
  have alike : ((State.start settings sinks).run? others).map State.blanked =
      some state.blanked := by
    rw [State.blanked_run?, same, ← State.blanked_run?, run, Option.map_some]
  obtain ⟨other, runs, blanked⟩ := Option.map_eq_some_iff.mp alike
  refine ⟨other, runs, (congrArg State.sinks blanked :), (congrArg State.interval blanked :),
    (congrArg State.lastRefresh blanked :), (congrArg State.watcher blanked :),
    congrArg State.history blanked, fun party => ?_, ?_, ?_, ?_⟩
  · rw [← other.lastResult?_blanked, blanked, state.lastResult?_blanked]
  · rw [← other.waits_blanked, blanked, state.waits_blanked]
  · exact congrArg (fun blank => blank.settings.shown blank.interval) blanked
  · rw [← shownTokens_blanked others, same, shownTokens_blanked]

/-- A task loads once, a second time it gets no token, and the background task is asked to stop
while it hands over the same token. -/
def twoLoadsAndStop (token : String) : List Action :=
  [.begin 0 (.direct (.own 0)), .enter (.host 0),
    .tokenReturned (.host 0) (.ok ⟨token, .ofSeconds 60⟩), .tokenTaken (.host 0),
    .readReturned (.host 0) (.ok { payload := [("x", .null)], lease := .ofSeconds 60 }),
    .readReturned (.host 0) (.ok { payload := [("y", .null)], lease := .ofSeconds 60 }),
    .commit (.host 0), .begin 0 .locking, .enter (.host 0),
    .tokenReturned (.host 0) (.error .rateLimited), .arm, .advance 45000, .due, .launch,
    .enter .watcher, .tokenReturned .watcher (.ok ⟨token, .ofSeconds 60⟩), .beginWait 1,
    .requestStop, .quit, .finishWait 1]

theorem tokens_do_not_leak_of_twoLoads : ∃ state other,
    (State.start twoSecrets fun _ => Values.empty).run? (twoLoadsAndStop "s") = some state ∧
      (State.start twoSecrets fun _ => Values.empty).run? (twoLoadsAndStop "t") = some other ∧
      state.storeToken = some "s" ∧ other.storeToken = some "t" ∧
      state.waits.map Prod.fst = [1] ∧ other.waits = state.waits ∧ other.sinks = state.sinks ∧
      blankHistory other.history = blankHistory state.history := by
  have view : ((State.start twoSecrets fun _ => Values.empty).run? (twoLoadsAndStop "s")).map
      (fun state => (state.storeToken, state.waits.map Prod.fst)) = some (some "s", [1]) := by
    decide +kernel
  have otherView : ((State.start twoSecrets fun _ => Values.empty).run?
      (twoLoadsAndStop "t")).map State.storeToken = some (some "t") := by
    decide +kernel
  obtain ⟨state, run, seen⟩ := Option.map_eq_some_iff.mp view
  obtain ⟨held, learnt⟩ := Prod.mk.inj seen
  have same : (twoLoadsAndStop "t").map Action.blanked =
      (twoLoadsAndStop "s").map Action.blanked := rfl
  obtain ⟨other, runs, alike⟩ := tokens_do_not_leak same run
  rw [runs] at otherView
  exact ⟨state, other, run, runs, held, Option.some.inj otherView, learnt, alike.waits, alike.sinks,
    alike.history⟩

end SecretRenewal.Loader
