/-
This file says how cycles return. A cycle that ends with a result ends in one of three ways: its
call for a token fails, a read of it fails, or it commits, and the result is the error of that
call or success. Every other step leaves the results alone.
-/
import SecretRenewal.Proofs.Loader.Commits

namespace SecretRenewal.Loader

def Event.result? : Event → Option (Party × Except LoadError Unit)
  | .finished party result => some (party, result)
  | _ => none

variable {sink : Type}

namespace State

variable (state : State sink)

/-- The results that cycles have returned so far, the oldest first. -/
def results : List (Party × Except LoadError Unit) :=
  extract (fun entry => entry.2.result?) state.history

theorem results_note (event : Event) :
    (state.note event).results = state.results ++ event.result?.toList :=
  extract_cons (state.now, event) state.history

theorem results_setWatcher (watcher : Watcher) :
    (state.setWatcher watcher).results = state.results :=
  extract_setWatcher (fun _ _ => rfl) state watcher

theorem results_beginCycle (party : Party) (delivery : Delivery) :
    (state.beginCycle party delivery).results = state.results := by
  rw [beginCycle_eq]
  rfl

theorem results_moveCycle (party : Party) (cycle : Cycle) (stage : Stage) :
    (state.moveCycle party cycle stage).results = state.results := by
  unfold results
  rw [extract_moveCycle]
  cases stage <;> exact List.append_nil _

theorem results_endCycle (party : Party) : (state.endCycle party).results = state.results := by
  rw [endCycle_eq]
  rfl

theorem results_finish (party : Party) (result : Except LoadError Unit) :
    (state.finish party result).results = state.results ++ [(party, result)] :=
  extract_finish (fun _ _ => rfl) state party result

theorem results_breakDown (party : Party) (reason : String) :
    (state.breakDown party reason).results = state.results :=
  (extract_breakDown state party reason).trans (List.append_nil _)

theorem results_write [ConfigSink sink] (target : Target) (entries : List (String × Json)) :
    (state.write target entries).results = state.results :=
  extract_write (fun _ _ _ _ => rfl) state target entries

theorem results_commit [ConfigSink sink] (party : Party) (target : Target) (batch : Staged) :
    (state.commit party target batch).results = state.results := by
  unfold commit
  rw [results_note]
  exact (List.append_nil _).trans (results_write state target batch.entries)

end State

/-- A cycle ends with a result. -/
inductive Returns [ConfigSink sink] (state : State sink) (party : Party) (cycle : Cycle) :
    Action → Except LoadError Unit → State sink → Prop
  /-- There is no token. -/
  | refused {error : LoadError} (stage : cycle.stage = .authenticating) :
      Returns state party cycle (.tokenReturned party (.error error)) (.error error)
        (state.finish party (.error error))
  /-- A read has failed. -/
  | failed {error : LoadError} {gathering : Gathering} (stage : cycle.stage = .reading gathering) :
      Returns state party cycle (.readReturned party (.error error)) (.error error)
        (state.finish party (.error error))
  /-- It has everything and writes. -/
  | committed {batch : Staged} (stage : cycle.stage = .staged batch) :
      Returns state party cycle (.commit party) (.ok ())
        ((state.commit party cycle.delivery.target batch).finish party (.ok ()))

variable [ConfigSink sink] {state next : State sink} {action : Action}

/-- What a step adds to the results: nothing, or the result of a cycle that returns. -/
theorem Move.results_eq_or (move : Move state action next) :
    next.results = state.results ∨ ∃ party cycle result,
      state.cycles party = some cycle ∧ Returns state party cycle action result next ∧
        next.results = state.results ++ [(party, result)] := by
  cases move with
  | begin idle guarded => exact .inl (State.results_beginCycle ..)
  | enter active stage turn =>
    refine .inl ?_
    rw [State.results_note, State.results_moveCycle]
    exact List.append_nil _
  | tokenCame active stage =>
    refine .inl ?_
    rw [State.results_note, State.results_note, State.results_moveCycle]
    exact (List.append_nil _).trans (List.append_nil _)
  | tokenFailed active stage =>
    exact .inr ⟨_, _, _, State.cycles_of_active active, .refused stage, State.results_finish ..⟩
  | tokenTaken active stage => exact .inl (State.results_moveCycle ..)
  | secretCame active stage =>
    refine .inl ((State.results_moveCycle ..).trans ?_)
    rw [State.results_note]
    exact List.append_nil _
  | secretFailed active stage =>
    exact .inr ⟨_, _, _, State.cycles_of_active active, .failed stage, State.results_finish ..⟩
  | callBroke active calling => exact .inl (State.results_breakDown ..)
  | askSink active stage toAsk => exact .inl rfl
  | commit active stage free =>
    refine .inr ⟨_, _, _, State.cycles_of_active active, .committed stage, ?_⟩
    rw [State.results_finish, State.results_commit]
  | writeBroke active stage free short =>
    refine .inl ?_
    rw [State.results_breakDown, State.results_write]
  | abandon running =>
    refine .inl ?_
    rw [State.results_note, State.results_endCycle]
    exact List.append_nil _
  | arm active phase => exact .inl (State.results_setWatcher ..)
  | rearm active phase known unheard => exact .inl (State.results_setWatcher ..)
  | due active phase heard reached =>
    refine .inl ?_
    rw [State.results_note, State.results_setWatcher]
    exact List.append_nil _
  | resume active phase reached =>
    refine .inl ?_
    rw [State.results_note, State.results_setWatcher]
    exact List.append_nil _
  | launch active phase idle => exact .inl (State.results_beginCycle ..)
  | requestStop present => exact .inl (State.results_setWatcher ..)
  | quitIdle present asked running idle => exact .inl (State.results_setWatcher ..)
  | quitCycle present asked running inCycle =>
    refine .inl ?_
    rw [State.results_setWatcher, State.results_note, State.results_endCycle]
    exact List.append_nil _
  | lockSink fresh => exact .inl rfl
  | unlockSink claimed unused => exact .inl rfl
  | beginWait present kept => exact .inl (State.results_setWatcher ..)
  | waitLate present late =>
    refine .inl ?_
    rw [State.results_note]
    exact List.append_nil _
  | finishWait present ended taken =>
    refine .inl ?_
    rw [State.results_note, State.results_setWatcher]
    exact List.append_nil _
  | dropWait present taken => exact .inl (State.results_setWatcher ..)
  | advance later quiet timely => exact .inl rfl

/-- A step after which there is a result of a party more is the return of its cycle. -/
theorem Move.returns (move : Move state action next) {party : Party}
    {result : Except LoadError Unit}
    (returned : next.results = state.results ++ [(party, result)]) :
    ∃ cycle, state.cycles party = some cycle ∧ Returns state party cycle action result next := by
  rcases move.results_eq_or with same | ⟨other, cycle, given, running, returns, results⟩
  · rw [same] at returned
    exact absurd (List.self_eq_append_right.mp returned) (List.cons_ne_nil _ _)
  · rw [results] at returned
    cases List.singleton_inj.mp (List.append_cancel_left returned)
    exact ⟨cycle, running, returns⟩

/-! ### From one cycle to the next -/

/-- Whether an action begins a cycle of a party. -/
def Action.BeginsCycleOf (party : Party) : Action → Prop
  | .begin host _ => party = .host host
  | .launch => party = .watcher
  | _ => False

section

omit [ConfigSink sink]

theorem Action.beginsCycleOf_of_fresh {party : Party}
    (fresh : ∀ answers, action.answersAfter party answers = []) : action.BeginsCycleOf party := by
  have emptied := fresh [.token (.ok ⟨"", Duration.zero⟩)]
  cases action with
  | begin host delivery =>
    by_cases isHost : party = .host host
    · exact isHost
    · simp [answersAfter, isHost] at emptied
  | launch =>
    by_cases isWatcher : party = .watcher
    · exact isWatcher
    · simp [answersAfter, isWatcher] at emptied
  | tokenReturned other answer =>
    by_cases isOther : party = other <;> simp [answersAfter, isOther] at emptied
  | readReturned other answer =>
    by_cases isOther : party = other <;> simp [answersAfter, isOther] at emptied
  | _ => cases emptied

/-- A party without a cycle gets none unless one begins. -/
theorem CycleStep.idle_of_idle (step : CycleStep state action next) {party : Party}
    (idle : state.cycles party = none) (same : ¬action.BeginsCycleOf party) :
    next.cycles party = none := by
  have different {other : Party} {cycle : Cycle} (running : state.cycles other = some cycle) :
      party ≠ other := by
    rintro rfl
    rw [idle] at running
    cases running
  cases step with
  | apart cycles turn deeds unanswered => rw [cycles, idle]
  | begun other delivery otherIdle cycles turn deeds fresh others =>
    have isOther : party ≠ other := by
      rintro rfl
      exact same (Action.beginsCycleOf_of_fresh fresh)
    rw [cycles, Function.update_of_ne isOther, idle]
  | moved other cycle after heard made running first advance cycles turn deeds answered others =>
    rw [cycles, Function.update_of_ne (different running), idle]
  | ended other cycle made running closing cycles turn deeds others =>
    rw [cycles, Function.update_of_ne (different running), idle]

end

/-- Whoever writes is inside, so while a cycle is inside no other writes. -/
theorem Move.sinks_of_inside (move : Move state action next) (turns : OneTurn state)
    {party : Party} (inside : state.IsInside party) :
    next.cycles party = none ∨ next.sinks = state.sinks := by
  cases ValueStep.of_move move with
  | apart noCommit same => exact .inr same.sinks
  | commit commits =>
    have writes : state.IsInside _ :=
      ⟨_, commits.running, by rw [commits.stage]; exact Stage.noConfusion⟩
    cases turns.unique writes inside
    exact .inl commits.done
  | breakOff interval lastRefresh commits log =>
    cases move with
    | writeBroke active stage free short =>
      have writes : state.IsInside _ :=
        ⟨_, State.cycles_of_active active, by rw [stage]; exact Stage.noConfusion⟩
      cases turns.unique writes inside
      exact .inl (State.cycles_breakDown_self ..)

/-- From its call for a token on, what the sinks hold is left alone until a cycle writes. -/
theorem sinks_while_inside {settings : LoaderSettings} {sinks : Target → sink}
    {earlier during : List Action} {party : Party} {entered : State sink}
    (run : (State.start settings sinks).run? earlier = some entered)
    (inside : entered.IsInside party) (further : entered.run? during = some state)
    (same : ∀ step ∈ during, ¬step.BeginsCycleOf party) (stillInside : state.IsInside party) :
    state.sinks = entered.sinks := by
  obtain ⟨-, idle | ⟨-, sinks⟩⟩ : OneTurn state ∧
      (state.cycles party = none ∨ state.IsInside party ∧ state.sinks = entered.sinks) := by
    refine State.run_induction (fun during state => (∀ step ∈ during, ¬step.BeginsCycleOf party) →
      OneTurn state ∧
        (state.cycles party = none ∨ state.IsInside party ∧ state.sinks = entered.sinks))
      (fun _ => ⟨oneTurn_of_run run, .inr ⟨inside, rfl⟩⟩) ?_ further same
    intro during middle action next _ inductionHypothesis move same
    have step : CycleStep middle action next := .of_move move
    obtain ⟨turns, before⟩ := inductionHypothesis fun step member =>
      same step (List.mem_append_left _ member)
    refine ⟨turns.step step, ?_⟩
    rcases before with idle | ⟨inside, sinks⟩
    · exact .inl (step.idle_of_idle idle (same action (List.mem_append_right _ (by simp))))
    · by_cases stays : next.IsInside party
      · rcases move.sinks_of_inside turns inside with idle | unwritten
        · exact .inl idle
        · exact .inr ⟨stays, unwritten.trans sinks⟩
      · exact .inl (step.over_of_leaves inside stays)
  · obtain ⟨cycle, running, -⟩ := stillInside
    rw [idle] at running
    cases running
  · exact sinks

/-- A cycle that returns well has been given its token and all its secrets, and commits what they
come to. -/
theorem commits_of_returned {settings : LoaderSettings} {sinks : Target → sink}
    {actions : List Action} {party : Party}
    (run : (State.start settings sinks).run? actions = some state)
    (step : state.step? action = some next)
    (returned : next.results = state.results ++ [(party, .ok ())]) :
    ∃ cycle auth values, state.cycles party = some cycle ∧
      settings.secrets.length = values.length ∧
      answersOf party actions = goodAnswers auth values ∧
      Commits state party cycle (Staged.gathered settings.secrets auth values) next := by
  have built : state.settings = settings := State.settings_of_run run
  obtain ⟨cycle, running, returns⟩ := (Move.of_step? step).returns returned
  obtain ⟨closed, current, traced⟩ := traced_of_run run
  obtain ⟨deeds, course, -⟩ := traced.courses party cycle running
  cases returns with
  | committed stage =>
    rw [stage, built] at course
    obtain ⟨auth, values, same, answers, -, rfl⟩ := course.fits
    exact ⟨cycle, auth, values, running, same, answers, .of_commit running stage⟩

end SecretRenewal.Loader
