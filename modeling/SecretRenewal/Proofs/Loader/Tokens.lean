/-
This file proves that the store holds the right token whenever a cycle reads. The token changes
only when a cycle hands one over, and that is the one this cycle was given. From then on until
the cycle is over no other cycle gets that far, since cycles take turns, so the cycle reads all its
secrets with its own token, whatever tokens earlier cycles left behind and however they ended.
-/
import SecretRenewal.Proofs.Loader.Turns

namespace SecretRenewal.Loader

variable {sink : Type}

/-- Whether a cycle has handed its token over. -/
def Stage.hasHandedOver : Stage → Bool
  | .reading _ | .staged _ => true
  | _ => false

/-- What a step does to the token that the store holds. It leaves it as it is, and then no cycle
gets past handing over, or it is the step that takes the token of a cycle over. -/
inductive TokenStep (state : State sink) : Action → State sink → Prop
  | kept {action : Action} {next : State sink} (token : next.storeToken = state.storeToken)
      (cycles : ∀ party cycle, next.cycles party = some cycle → cycle.stage.hasHandedOver = true →
        ∃ before, state.cycles party = some before ∧ before.stage.hasHandedOver = true) :
      TokenStep state action next
  | taken {party : Party} {cycle : Cycle} {auth : AuthToken} {next : State sink}
      (running : state.cycles party = some cycle) (stage : cycle.stage = .handingOver auth)
      (token : next.storeToken = some auth.token)
      (others : ∀ other ≠ party, next.cycles other = state.cycles other) :
      TokenStep state (.tokenTaken party) next

namespace TokenStep

variable {state next : State sink} {action : Action}

theorem of_same (token : next.storeToken = state.storeToken) (cycles : next.cycles = state.cycles) :
    TokenStep state action next :=
  .kept token fun _ cycle running handed => ⟨cycle, cycles ▸ running, handed⟩

/-- A step that moves one cycle keeps to the tokens if that cycle has not just handed one over. -/
theorem of_update {party : Party} {after : Option Cycle}
    (token : next.storeToken = state.storeToken)
    (cycles : next.cycles = Function.update state.cycles party after)
    (own : ∀ cycle, after = some cycle → cycle.stage.hasHandedOver = true →
      ∃ before, state.cycles party = some before ∧ before.stage.hasHandedOver = true) :
    TokenStep state action next := by
  refine .kept token fun other cycle running handed => ?_
  rw [cycles] at running
  by_cases same : other = party
  · rw [same, Function.update_self] at running
    exact same ▸ own cycle running handed
  · rw [Function.update_of_ne same] at running
    exact ⟨cycle, running, handed⟩

theorem of_ended {party : Party} (token : next.storeToken = state.storeToken)
    (cycles : next.cycles = Function.update state.cycles party none) :
    TokenStep state action next :=
  of_update token cycles nofun

theorem of_finish {before : State sink} {party : Party} {result : Except LoadError Unit}
    (token : before.storeToken = state.storeToken) (cycles : before.cycles = state.cycles) :
    TokenStep state action (before.finish party result) := by
  rw [State.finish_eq]
  exact of_ended token (congrArg (Function.update · party none) cycles)

theorem of_breakDown {before : State sink} {party : Party} {reason : String}
    (token : before.storeToken = state.storeToken) (cycles : before.cycles = state.cycles) :
    TokenStep state action (before.breakDown party reason) := by
  rw [State.breakDown_eq]
  exact of_ended token (congrArg (Function.update · party none) cycles)

theorem of_setWatcher {before : State sink} {watcher : Watcher}
    (token : before.storeToken = state.storeToken) (cycles : before.cycles = state.cycles) :
    TokenStep state action (before.setWatcher watcher) := by
  rw [State.setWatcher_eq]
  exact of_same token cycles

/-- Every step but the one that takes a token leaves the store with the token it had. -/
theorem of_move [ConfigSink sink] (move : Move state action next) :
    TokenStep state action next := by
  cases move with
  | begin idle guarded =>
    rw [State.beginCycle_eq]
    exact of_update rfl rfl fun cycle fresh handed => by cases fresh; cases handed
  | enter active stage turn =>
    rw [State.moveCycle_eq]
    exact of_update rfl rfl fun cycle moved handed => by cases moved; cases handed
  | tokenCame active stage =>
    rw [State.moveCycle_eq]
    exact of_update rfl rfl fun cycle moved handed => by cases moved; cases handed
  | tokenFailed active stage => exact of_finish rfl rfl
  | tokenTaken active stage =>
    rw [State.moveCycle_eq]
    exact .taken (State.cycles_of_active active) stage rfl fun other different =>
      Function.update_of_ne different _ _
  | secretCame active stage =>
    rw [State.moveCycle_eq]
    refine of_update rfl rfl fun cycle moved handed => ?_
    exact ⟨_, State.cycles_of_active active, by rw [stage]; rfl⟩
  | secretFailed active stage => exact of_finish rfl rfl
  | callBroke active calling => exact of_breakDown rfl rfl
  | askSink active stage toAsk => exact of_same rfl rfl
  | commit active stage free => exact of_finish rfl rfl
  | writeBroke active stage free short => exact of_breakDown rfl rfl
  | abandon running =>
    rw [State.endCycle_eq]
    exact of_ended rfl rfl
  | arm active phase => exact of_setWatcher rfl rfl
  | rearm active phase known unheard => exact of_setWatcher rfl rfl
  | due active phase heard reached =>
    rw [State.setWatcher_eq]
    exact of_same rfl rfl
  | resume active phase reached =>
    rw [State.setWatcher_eq]
    exact of_same rfl rfl
  | launch active phase idle =>
    rw [State.beginCycle_eq]
    exact of_update rfl rfl fun cycle fresh handed => by cases fresh; cases handed
  | requestStop present => exact of_setWatcher rfl rfl
  | quitIdle present asked running idle => exact of_setWatcher rfl rfl
  | quitCycle present asked running inCycle =>
    rw [State.setWatcher_eq, State.endCycle_eq]
    exact of_ended rfl rfl
  | lockSink fresh => exact of_same rfl rfl
  | unlockSink claimed unused => exact of_same rfl rfl
  | beginWait present kept => exact of_setWatcher rfl rfl
  | waitLate present late => exact of_same rfl rfl
  | finishWait present ended taken =>
    rw [State.setWatcher_eq]
    exact of_same rfl rfl
  | dropWait present taken => exact of_setWatcher rfl rfl
  | advance later quiet timely => exact of_same rfl rfl

end TokenStep

/-! ### Whose token it is -/

/-- The latest cycle of a party was given a token, and no call of it has failed. -/
def WasGiven (actions : List Action) (party : Party) (auth : AuthToken) : Prop :=
  ∃ values, answersOf party actions = goodAnswers auth values

/-- A cycle is given one token. -/
theorem WasGiven.unique {actions : List Action} {party : Party} {auth other : AuthToken}
    (given : WasGiven actions party auth) (givenToo : WasGiven actions party other) :
    auth = other := by
  obtain ⟨values, answers⟩ := given
  obtain ⟨others, same⟩ := givenToo
  have first := (List.cons.inj (answers.symm.trans same)).1
  injection first with first
  exact Except.ok.inj first

/-- A cycle that goes on has the token that it had. -/
theorem WasGiven.of_append_singleton {actions : List Action} {action : Action} {party : Party}
    {auth other : AuthToken} (given : WasGiven (actions ++ [action]) party auth)
    (before : WasGiven actions party other) : auth = other := by
  obtain ⟨values, answers⟩ := given
  obtain ⟨others, earlier⟩ := before
  have isFirst : (answersOf party (actions ++ [action])).head? = some (.token (.ok auth)) := by
    rw [answers]
    rfl
  rw [answersOf_append_singleton, earlier] at isFirst
  unfold Action.answersAfter at isFirst
  split at isFirst
  -- A cycle that begins has no answers, and all others keep the first one they had.
  · split at isFirst
    · cases isFirst
    · cases isFirst
      rfl
  · split at isFirst
    · cases isFirst
    · cases isFirst
      rfl
  · split at isFirst <;> cases isFirst <;> rfl
  · split at isFirst <;> cases isFirst <;> rfl
  · cases isFirst
    rfl

variable {actions : List Action} {state next : State sink} {action : Action}

/-- A cycle that has handed its token over was given one. -/
theorem Course.exists_given {secrets : List SecretDescriptor} {party : Party} {deeds : List Deed}
    {stage : Stage} (course : Course secrets (answersOf party actions) deeds stage)
    (handed : stage.hasHandedOver = true) : ∃ auth, WasGiven actions party auth := by
  have fits := course.fits
  cases stage with
  | reading gathering =>
    obtain ⟨auth, done, values, -, -, answers, -⟩ := fits
    exact ⟨auth, values, answers⟩
  | staged batch =>
    obtain ⟨auth, values, -, answers, -⟩ := fits
    exact ⟨auth, values, answers⟩
  | _ => cases handed

/-- The store holds the token of whichever cycle has handed one over. -/
def HoldsOwn (actions : List Action) (state : State sink) : Prop :=
  ∀ party cycle, state.cycles party = some cycle → cycle.stage.hasHandedOver = true →
    ∃ auth, WasGiven actions party auth ∧ state.storeToken = some auth.token

section

variable [ConfigSink sink] {settings : LoaderSettings} {sinks : Target → sink}

theorem HoldsOwn.step (own : HoldsOwn actions state) (turns : OneTurn state)
    (run : (State.start settings sinks).run? actions = some state)
    (move : Move state action next) : HoldsOwn (actions ++ [action]) next := by
  obtain ⟨_, _, traced⟩ := traced_of_run run
  obtain ⟨_, _, tracedAfter⟩ := traced_of_run (State.run?_append_of_move run move)
  intro party cycle running handed
  obtain ⟨deeds, course, -⟩ := tracedAfter.courses party cycle running
  obtain ⟨auth, given⟩ := course.exists_given handed
  refine ⟨auth, given, ?_⟩
  cases TokenStep.of_move move with
  | kept token cycles =>
    obtain ⟨before, ran, had⟩ := cycles party cycle running handed
    obtain ⟨other, givenBefore, held⟩ := own party before ran had
    rw [token, given.of_append_singleton givenBefore, held]
  | @taken taker before handing _ ran stage token others =>
    by_cases same : party = taker
    · subst same
      obtain ⟨deeds, course, -⟩ := traced.courses party before ran
      rw [stage] at course
      rw [token, given.of_append_singleton ⟨[], course.fits.1⟩]
    · -- A cycle that has handed its token over is inside, and so is the one that hands it over.
      rw [others party same] at running
      refine absurd (turns.unique ⟨cycle, running, ?_⟩ ⟨before, ran, ?_⟩) same
      · rintro queued
        rw [queued] at handed
        cases handed
      · rw [stage]
        nofun

/-- In every state the store holds the token of whichever cycle has handed one over. -/
theorem holdsOwn_of_run (run : (State.start settings sinks).run? actions = some state) :
    HoldsOwn actions state :=
  State.run_induction HoldsOwn (fun party cycle running => by cases running)
    (fun run own move => own.step (oneTurn_of_run run) run move) run

end

end SecretRenewal.Loader
