/-
This file says what becomes of those who wait for the end of the background task. Only one task
has the handle to it. That task is told the truth, and not before there is something to tell. Any
other is told at once that all is well, whether the background task has ended or not. So waiting
is what it should be exactly on those runs where nobody asks a second time too early: before the
background task is over, or when it has failed and the task with the handle has not yet been told,
or never will be because it gave up waiting.
-/
import SecretRenewal.Proofs.Loader.Breakdowns
import Mathlib.Data.List.Infix

namespace SecretRenewal.Loader

variable {sink : Type}

namespace State

/-- The background task is over, and this is how it ended. -/
def HasEnded (state : State sink) (outcome : Except LoadError Unit) : Prop :=
  ∃ watcher, state.watcher = some watcher ∧ watcher.phase.outcome? = some outcome

/-- Nobody is told of the end of a background task that still runs, and if it fails then the
first to be told of its end is told the error. -/
structure TellsTruly (state : State sink) : Prop where
  notEarly : state.waits ≠ [] → ∃ outcome, state.HasEnded outcome
  error : ∀ error, state.HasEnded (.error error) → ∀ wait ∈ state.waits.head?,
    wait.2 = .error error

theorem HasEnded.unique {state : State sink} {outcome other : Except LoadError Unit}
    (ended : state.HasEnded outcome) (endedToo : state.HasEnded other) : outcome = other := by
  obtain ⟨watcher, present, isOutcome⟩ := ended
  obtain ⟨again, presentToo, isOther⟩ := endedToo
  cases present.symm.trans presentToo
  exact Option.some.inj (isOutcome.symm.trans isOther)

/-- It is enough that the first to be told was told the truth. -/
theorem TellsTruly.of_first {state : State sink}
    (truth : ∀ wait ∈ state.waits.head?, state.HasEnded wait.2) : state.TellsTruly where
  notEarly told := ⟨_, truth _ (List.head_mem_head? told)⟩
  error _ failed wait first := (truth wait first).unique failed

end State

section

variable [ConfigSink sink] {settings : LoaderSettings} {sinks : Target → sink}
  {actions : List Action} {state next : State sink} {action : Action} {host : Nat}
  {outcome : Except LoadError Unit}

/-! ### The end -/

/-- The background task ends once, and in one way. -/
theorem State.HasEnded.later (ended : state.HasEnded outcome)
    (run : (State.start settings sinks).run? actions = some state) {rest : List Action}
    {later : State sink} (further : state.run? rest = some later) : later.HasEnded outcome := by
  obtain ⟨watcher, present, isOutcome⟩ := ended
  have isOver : watcher.phase.isRunning = false := by
    rw [Phase.isRunning, isOutcome]
    rfl
  obtain ⟨after, isAfter, phase, -⟩ := over_for_good run present isOver further
  exact ⟨after, isAfter, phase ▸ isOutcome⟩

theorem State.HasEnded.of_move (ended : state.HasEnded outcome)
    (run : (State.start settings sinks).run? actions = some state)
    (move : Move state action next) : next.HasEnded outcome :=
  ended.later run (State.run?_of_move move)

/-- Whoever has the handle is told of the end as soon as there is one. -/
theorem State.exists_finishWait : (∃ next, state.step? (.finishWait host) = some next) ↔
    state.handle? = some (.taken host) ∧ ∃ outcome, state.HasEnded outcome := by
  constructor
  · rintro ⟨next, step⟩
    cases Move.of_step? step with
    | finishWait present ended isTaken =>
      exact ⟨by rw [State.handle?_of_present present, isTaken], _, _, present, ended⟩
  · rintro ⟨taken, outcome, watcher, present, ended⟩
    have isTaken : watcher.handle = .taken host :=
      Option.some.inj ((State.handle?_of_present present).symm.trans taken)
    exact ⟨_, (Move.finishWait present ended isTaken).step?_eq⟩

/-- To ask does not end the background task. -/
theorem State.HasEnded.of_beginWait (ended : next.HasEnded outcome)
    (move : Move state (.beginWait host) next) : state.HasEnded outcome := by
  obtain ⟨after, isAfter, isOutcome⟩ := ended
  cases move with
  | @beginWait _ watcher present kept =>
    cases (State.watcher_setWatcher ..).symm.trans isAfter
    exact ⟨watcher, present, isOutcome⟩
  | waitLate present late => exact ⟨after, isAfter, isOutcome⟩

/-! ### Where the handle is -/

/-- Where the handle is after some actions, and what has been learnt through it. -/
structure Joined (actions : List Action) (state : State sink) : Prop where
  asked : (∃ host, .beginWait host ∈ actions) ↔ ∃ handle, state.handle? = some handle ∧
    handle ≠ .kept
  untold : (∀ host, .finishWait host ∉ actions) → ∀ wait ∈ state.waits, wait.2 = .ok ()
  told : (∃ host, .finishWait host ∈ actions) → state.waits ≠ []

omit [ConfigSink sink] in
theorem Joined.start : Joined [] (State.start settings sinks) where
  asked := by
    refine iff_of_false (by rintro ⟨host, member⟩; cases member) ?_
    rintro ⟨handle, isHandle, moved⟩
    unfold State.handle? State.start at isHandle
    split at isHandle
    · cases isHandle
      exact moved rfl
    · cases isHandle
  untold _ _ member := nomatch member
  told := fun ⟨_, member⟩ => nomatch member

theorem Joined.step (joined : Joined actions state) (move : Move state action next) :
    Joined (actions ++ [action]) next := by
  cases WaitStep.of_move move with
  | apart noWait handle waits =>
    have noBegin (host : Nat) : action ≠ .beginWait host := by
      rintro rfl
      cases noWait
    have noFinish (host : Nat) : action ≠ .finishWait host := by
      rintro rfl
      cases noWait
    constructor
    · simpa [handle, fun host => (noBegin host).symm] using joined.asked
    · simpa [waits, fun host => (noFinish host).symm] using joined.untold
    · simpa [waits, fun host => (noFinish host).symm] using joined.told
  | began kept taken waits =>
    constructor
    · simp [taken]
    · simpa [waits] using joined.untold
    · simpa [waits] using joined.told
  | @late host handle _ isHandle late same waits =>
    constructor
    · simp [same, isHandle, late]
    · intro unfinished wait member
      rw [waits, List.mem_append, List.mem_singleton] at member
      rcases member with earlier | rfl
      · exact joined.untold (fun other told => unfinished other (List.mem_append_left _ told)) wait
          earlier
      · rfl
    · simp [waits]
  | learnt present isOver taken gone waits =>
    have asked := joined.asked.mpr ⟨_, taken, nofun⟩
    constructor
    · simpa [gone] using asked
    · intro unfinished
      exact absurd (List.mem_append_right _ (List.mem_singleton_self _)) (unfinished _)
    · simp [waits]
  | gaveUp taken gone waits =>
    have asked := joined.asked.mpr ⟨_, taken, nofun⟩
    constructor
    · simpa [gone] using asked
    · simpa [waits] using joined.untold
    · simpa [waits] using joined.told

theorem joined_of_run (run : (State.start settings sinks).run? actions = some state) :
    Joined actions state :=
  State.run_induction Joined Joined.start (fun _ joined move => joined.step move) run

/-! ### Whoever asks first -/

/-- The first task that asks either still waits, or has been told the truth, unless it gave up. -/
theorem first_is_told {before rest : List Action} {middle : State sink}
    (start : (State.start settings sinks).run? (before ++ [.beginWait host]) = some middle)
    (first : ∀ other, .beginWait other ∉ before) (run : middle.run? rest = some state)
    (patient : .dropWait host ∉ rest) :
    state.handle? = some (.taken host) ∨
      ∃ outcome, (host, outcome) ∈ state.waits ∧ state.HasEnded outcome := by
  refine State.run_induction (fun rest state => .dropWait host ∉ rest →
    state.handle? = some (.taken host) ∨
      ∃ outcome, (host, outcome) ∈ state.waits ∧ state.HasEnded outcome) ?_ ?_ run patient
  · intro _
    rw [State.run?_append] at start
    obtain ⟨early, reaches, step⟩ := Option.bind_eq_some_iff.mp start
    obtain ⟨_, step, same⟩ := Option.bind_eq_some_iff.mp step
    cases same
    cases WaitStep.of_move (Move.of_step? step) with
    | apart noWait handle waits => cases noWait
    | began kept taken waits => exact .inl taken
    | late isHandle late same waits =>
      obtain ⟨other, member⟩ := (joined_of_run reaches).asked.mpr ⟨_, isHandle, late⟩
      exact absurd member (first other)
  · intro taken state action next ran inductionHypothesis move patient
    have whole : (State.start settings sinks).run? (before ++ [.beginWait host] ++ taken) =
        some state := by
      rw [State.run?_append, start]
      exact ran
    rcases inductionHypothesis fun given => patient (List.mem_append_left _ given) with
      waiting | ⟨outcome, learnt, ended⟩
    · cases WaitStep.of_move move with
      | apart noWait handle waits => exact .inl (handle.trans waiting)
      | began kept isTaken waits => cases kept.symm.trans waiting
      | late isHandle late same waits => exact .inl (same.trans waiting)
      | @learnt other watcher outcome _ present isOver isTaken gone waits =>
        cases isTaken.symm.trans waiting
        refine .inr ⟨outcome, ?_, .of_move ⟨watcher, present, isOver⟩ whole move⟩
        rw [waits]
        exact List.mem_append_right _ (List.mem_singleton_self _)
      | gaveUp isTaken gone waits =>
        cases isTaken.symm.trans waiting
        exact absurd (List.mem_append_right _ (List.mem_singleton_self _)) patient
    · refine .inr ⟨outcome, ?_, ended.of_move whole move⟩
      rcases move.waits_eq with same | ⟨_, _, more, -⟩
      · exact same ▸ learnt
      · rw [more]
        exact List.mem_append_left _ learnt

/-! ### Asking again -/

/-- Nobody asks again before the background task is over, or when it has failed and nobody has
been told so yet. -/
def AsksInTime (start : State sink) (actions : List Action) : Prop :=
  ∀ before host middle, before ++ [.beginWait host] <+: actions →
    start.run? before = some middle → (∃ other, .beginWait other ∈ before) →
      ∃ outcome, middle.HasEnded outcome ∧
        (outcome = .ok () ∨ ∃ other, .finishWait other ∈ before)

/-- Where nobody asks again too early, the first to be told is told the truth. -/
theorem AsksInTime.first_is_true (inTime : AsksInTime (State.start settings sinks) actions)
    (run : (State.start settings sinks).run? actions = some state) :
    ∀ wait ∈ state.waits.head?, state.HasEnded wait.2 := by
  refine State.run_induction (fun actions state => AsksInTime (State.start settings sinks) actions →
    ∀ wait ∈ state.waits.head?, state.HasEnded wait.2) ?_ ?_ run inTime
  · exact fun _ wait first => nomatch first
  · intro actions state action next run inductionHypothesis move inTime wait first
    have earlier : ∀ wait ∈ state.waits.head?, next.HasEnded wait.2 := fun wait first =>
      (inductionHypothesis (fun before host middle begun => inTime before host middle
        (begun.trans (List.prefix_append ..))) wait first).of_move run move
    cases WaitStep.of_move move with
    | apart noWait handle waits => exact earlier wait (waits ▸ first)
    | began kept taken waits => exact earlier wait (waits ▸ first)
    | @late host handle _ isHandle late same waits =>
      rw [waits, List.head?_append] at first
      cases learnt : state.waits.head? with
      | some old =>
        rw [learnt] at first
        cases first
        exact earlier _ learnt
      | none =>
        -- The first to be told is one who asked again.
        rw [learnt] at first
        cases first
        obtain ⟨outcome, ended, harmless⟩ := inTime actions host state List.prefix_rfl run
          ((joined_of_run run).asked.mpr ⟨_, isHandle, late⟩)
        rcases harmless with rfl | told
        · exact ended.of_move run move
        · exact absurd (List.head?_eq_none_iff.mp learnt) ((joined_of_run run).told told)
    | @learnt host watcher outcome _ present isOver taken gone waits =>
      rw [waits, List.head?_append] at first
      cases learnt : state.waits.head? with
      | some old =>
        rw [learnt] at first
        cases first
        exact earlier _ learnt
      | none =>
        rw [learnt] at first
        cases first
        exact .of_move ⟨watcher, present, isOver⟩ run move
    | gaveUp taken gone waits => exact earlier wait (waits ▸ first)

/-- Whoever asks again is told at once that all is well. -/
theorem Joined.waits_eq_of_again (joined : Joined actions state)
    (asked : ∃ other, .beginWait other ∈ actions) (move : Move state (.beginWait host) next) :
    next.waits = state.waits ++ [(host, .ok ())] := by
  obtain ⟨handle, isHandle, moved⟩ := joined.asked.mp asked
  cases WaitStep.of_move move with
  | apart noWait handle waits => cases noWait
  | began kept taken waits =>
    cases kept.symm.trans isHandle
    exact absurd rfl moved
  | late isHandle late same waits => exact waits

/-- Where everyone is told the truth, nobody asks again too early. -/
theorem asksInTime_of_truth (run : (State.start settings sinks).run? actions = some state)
    (truth : ∀ before middle, before <+: actions →
      (State.start settings sinks).run? before = some middle → middle.TellsTruly) :
    AsksInTime (State.start settings sinks) actions := by
  intro before host middle begun reaches asked
  obtain ⟨rest, rfl⟩ := begun
  rw [State.run?_append] at run
  obtain ⟨next, asks, -⟩ := Option.bind_eq_some_iff.mp run
  have told : next.TellsTruly := truth _ next (List.prefix_append ..) asks
  rw [State.run?_append, reaches, Option.bind_some] at asks
  obtain ⟨after, step, same⟩ := Option.bind_eq_some_iff.mp asks
  cases same
  have move : Move middle (.beginWait host) next := .of_step? step
  have waits := (joined_of_run reaches).waits_eq_of_again asked move
  obtain ⟨outcome, ended⟩ := told.notEarly (by simp [waits])
  refine ⟨outcome, ended.of_beginWait move, ?_⟩
  cases outcome with
  | ok done => exact .inl rfl
  | error error =>
    refine .inr (by_contra fun unfinished => ?_)
    have allWell := (joined_of_run reaches).untold fun other told => unfinished ⟨other, told⟩
    have first := told.error error ended
    rw [waits, List.head?_append] at first
    cases learnt : middle.waits.head? with
    | none =>
      rw [learnt] at first
      cases first _ rfl
    | some old =>
      rw [learnt] at first
      cases (allWell old (List.mem_of_head? learnt)).symm.trans (first old rfl)

/-- Waiting for the end of the background task is what it should be, nobody told too early and the
first to be told the error told the error, exactly if nobody asks again before the background task
is over, or when it has failed and nobody has been told so yet. The first task that asks is always
told the truth, as soon as there is one and not before, unless it gives up. -/
theorem tells_truly_iff_asks_in_time
    (run : (State.start settings sinks).run? actions = some state) :
    ((∀ before middle, before <+: actions →
        (State.start settings sinks).run? before = some middle → middle.TellsTruly) ↔
      AsksInTime (State.start settings sinks) actions) ∧
    ∀ before host rest, actions = before ++ .beginWait host :: rest →
      (∀ other, .beginWait other ∉ before) → .dropWait host ∉ rest →
        ((∃ next, state.step? (.finishWait host) = some next) ↔
          state.handle? = some (.taken host) ∧ ∃ outcome, state.HasEnded outcome) ∧
        (state.handle? = some (.taken host) ∨
          ∃ outcome, (host, outcome) ∈ state.waits ∧ state.HasEnded outcome) := by
  refine ⟨⟨asksInTime_of_truth run, fun inTime before middle isPrefix reaches => ?_⟩, ?_⟩
  · have soFar : AsksInTime (State.start settings sinks) before := fun early host middle begun =>
      inTime early host middle (begun.trans isPrefix)
    exact .of_first (soFar.first_is_true reaches)
  · rintro before host rest rfl first patient
    rw [List.append_cons, State.run?_append] at run
    obtain ⟨middle, asks, further⟩ := Option.bind_eq_some_iff.mp run
    exact ⟨State.exists_finishWait, first_is_told asks first further patient⟩

end

/-- A call of the background task breaks down while a task waits for its end, and once that task
has been told so, another one asks. -/
def askedInTime : List Action :=
  [.beginWait 0, .arm, .due, .launch, .enter .watcher, .callBroke .watcher "b", .finishWait 0,
    .beginWait 1]

/-- Whether the first to be told was told the truth. -/
def State.firstIsTrue (state : State sink) : Bool :=
  state.waits.head?.all fun wait => decide
    (state.watcher.bind (fun watcher => watcher.phase.outcome?) = some wait.2)

theorem State.TellsTruly.of_firstIsTrue {state : State sink} (checked : state.firstIsTrue = true) :
    state.TellsTruly := by
  refine .of_first fun wait first => ?_
  unfold firstIsTrue at checked
  rw [Option.mem_def.mp first] at checked
  exact Option.bind_eq_some_iff.mp (of_decide_eq_true checked)

theorem tells_truly_of_askedInTime : ∃ state,
    (State.start twoAttempts fun _ => Values.empty).run? askedInTime = some state ∧
      state.waits = [(0, .error (.watcherAborted (abortReason "b"))), (1, .ok ())] ∧
      AsksInTime (State.start twoAttempts fun _ => Values.empty) askedInTime ∧
      ∃ outcome, (0, outcome) ∈ state.waits ∧ state.HasEnded outcome := by
  have view : ((State.start twoAttempts fun _ => Values.empty).run? askedInTime).map
      (fun state => (state.waits, state.handle?)) =
      some ([(0, .error (.watcherAborted (abortReason "b"))), (1, .ok ())], some .gone) := by
    decide +kernel
  have truth : ∀ before ∈ askedInTime.inits,
      ((State.start twoAttempts fun _ => Values.empty).run? before).all State.firstIsTrue := by
    decide +kernel
  obtain ⟨state, run, seen⟩ := Option.map_eq_some_iff.mp view
  obtain ⟨learnt, gone⟩ := Prod.mk.inj seen
  obtain ⟨truly, first⟩ := tells_truly_iff_asks_in_time run
  refine ⟨state, run, learnt, truly.mp fun before middle isPrefix reaches => ?_, ?_⟩
  · have checked := truth before ((List.mem_inits ..).mpr isPrefix)
    rw [reaches] at checked
    exact .of_firstIsTrue checked
  · rcases (first [] 0 _ rfl (by simp) (by simp)).2 with taken | told
    · cases gone.symm.trans taken
    · exact told

/-- A second task that asks while the first one waits is told at once that all is well, though the
background task still runs; and if the first one gave up, a second one that asks after the retries
are used up is told that all is well, and is the first to be told anything. -/
theorem second_is_told_wrong :
    (∃ state, (State.start twoAttempts fun _ => Values.empty).run? [.beginWait 0, .beginWait 1] =
        some state ∧
      state.waits = [(1, .ok ())] ∧ ¬ ∃ outcome, state.HasEnded outcome) ∧
    ∃ state, (State.start twoAttempts fun _ => Values.empty).run?
        (.beginWait 0 :: .dropWait 0 :: untilExhausted ++ [.beginWait 1]) = some state ∧
      state.waits = [(1, .ok ())] ∧
      state.HasEnded (.error (.retryExhausted 2 (.unavailable "b"))) := by
  constructor
  · obtain ⟨state, run, learnt, running⟩ : ∃ state,
        (State.start twoAttempts fun _ => Values.empty).run? [.beginWait 0, .beginWait 1] =
          some state ∧ state.waits = [(1, .ok ())] ∧
          state.watcher.map (fun watcher => watcher.phase.outcome?) = some none :=
      ⟨_, rfl, rfl, rfl⟩
    refine ⟨state, run, learnt, ?_⟩
    rintro ⟨outcome, watcher, present, ended⟩
    rw [present, Option.map_some, ended] at running
    cases running
  · have view : ((State.start twoAttempts fun _ => Values.empty).run?
          (.beginWait 0 :: .dropWait 0 :: untilExhausted ++ [.beginWait 1])).map
        (fun state => (state.waits, state.watcher.map fun watcher => watcher.phase.outcome?)) =
        some ([(1, .ok ())], some (some (.error (.retryExhausted 2 (.unavailable "b"))))) := by
      decide +kernel
    obtain ⟨state, run, seen⟩ := Option.map_eq_some_iff.mp view
    obtain ⟨learnt, isOutcome⟩ := Prod.mk.inj seen
    obtain ⟨watcher, present, ended⟩ := Option.map_eq_some_iff.mp isOutcome
    exact ⟨state, run, learnt, watcher, present, ended⟩

end SecretRenewal.Loader
