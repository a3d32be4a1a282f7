/-
This file proves that cycles take turns. A cycle is inside from its call for a token on until it
is over, however it ends, and whoever is inside holds the lock that only one party can hold. The
lock is claimed by exactly the parties that have a cycle, so none is ever left behind. Hence
nobody but the cycle that is inside calls or commits, and the log of all calls is a sequence of
blocks, each of them what one cycle leaves behind.
-/
import SecretRenewal.Proofs.Loader.Courses

namespace SecretRenewal.Loader

/-- Whether the cycle of a party has begun to call and is not over. -/
def State.IsInside {sink : Type} (state : State sink) (party : Party) : Prop :=
  ∃ cycle, state.cycles party = some cycle ∧ cycle.stage ≠ .queued

/-- What one cycle leaves in the log: the first of its calls, or all of them and its commit. -/
def IsBlock (secrets : List SecretDescriptor) (block : List (Party × Deed)) : Prop :=
  ∃ party token deeds, block = deeds.map (party, ·) ∧ deeds ≠ [] ∧
    (deeds <+: callsFor secrets token ∨ deeds = callsFor secrets token ++ [.commit])

variable {sink : Type}

/-! ### The lock -/

/-- Whoever has a cycle claims the lock, and whoever is inside holds it. -/
structure OneTurn (state : State sink) : Prop where
  fair : state.turn.WellFormed
  claimed : ∀ party, party ∈ state.turn.claims ↔ (state.cycles party).isSome
  inside : ∀ party, state.IsInside party → state.turn.holder = some party

namespace OneTurn

variable {state next : State sink} {action : Action}

/-- At most one cycle is inside. -/
theorem unique (turns : OneTurn state) {first second : Party} (isFirst : state.IsInside first)
    (isSecond : state.IsInside second) : first = second :=
  Option.some.inj ((turns.inside first isFirst).symm.trans (turns.inside second isSecond))

/-- Only the holder of the lock moves on. -/
theorem holder_of_move (turns : OneTurn state) {party : Party} {cycle : Cycle}
    (running : state.cycles party = some cycle)
    (first : cycle.stage = .queued → state.turn.holder = some party) :
    state.turn.holder = some party := by
  by_cases queued : cycle.stage = .queued
  · exact first queued
  · exact turns.inside party ⟨cycle, running, queued⟩

theorem start (settings : LoaderSettings) (sinks : Target → sink) :
    OneTurn (State.start settings sinks) where
  fair := Lock.wellFormed_free
  claimed party := by simp [State.start, Lock.free, Lock.claims]
  inside party isInside := by
    obtain ⟨cycle, running, -⟩ := isInside
    cases running

theorem step (turns : OneTurn state) (step : CycleStep state action next) : OneTurn next := by
  cases step with
  | apart cycles turn deeds unanswered =>
    refine ⟨turn ▸ turns.fair, fun party => ?_, fun party isInside => ?_⟩
    · rw [turn, cycles]
      exact turns.claimed party
    · rw [State.IsInside, cycles] at isInside
      rw [turn]
      exact turns.inside party isInside
  | begun party delivery idle cycles turn deeds fresh others =>
    have unclaimed : party ∉ state.turn.claims := by
      rw [turns.claimed, idle]
      exact Bool.false_ne_true
    refine ⟨turn ▸ turns.fair.ask unclaimed, fun other => ?_, fun other isInside => ?_⟩
    · rw [turn, cycles, Lock.mem_claims_ask turns.fair, turns.claimed]
      by_cases same : other = party
      · simp [same]
      · simp [same]
    · obtain ⟨cycle, running, called⟩ := isInside
      rw [cycles] at running
      by_cases same : other = party
      · rw [same, Function.update_self] at running
        cases running
        exact absurd rfl called
      · rw [Function.update_of_ne same] at running
        rw [turn]
        exact Lock.holder_ask_of_holder (turns.inside other ⟨cycle, running, called⟩) party
  | moved party cycle after heard made running first advance cycles turn deeds answered others =>
    refine ⟨turn ▸ turns.fair, fun other => ?_, fun other isInside => ?_⟩
    · rw [turn, cycles, turns.claimed]
      by_cases same : other = party
      · simp [same, running]
      · simp [same]
    · obtain ⟨now, runs, called⟩ := isInside
      rw [turn]
      by_cases same : other = party
      · rw [same]
        exact turns.holder_of_move running first
      · rw [cycles, Function.update_of_ne same] at runs
        exact turns.inside other ⟨now, runs, called⟩
  | ended party cycle made running closing cycles turn deeds others =>
    refine ⟨turn ▸ turns.fair.leave party, fun other => ?_, fun other isInside => ?_⟩
    · rw [turn, cycles, Lock.mem_claims_leave turns.fair, turns.claimed]
      by_cases same : other = party
      · simp [same]
      · simp [same]
    · obtain ⟨now, runs, called⟩ := isInside
      by_cases same : other = party
      · rw [cycles, same, Function.update_self] at runs
        cases runs
      · rw [cycles, Function.update_of_ne same] at runs
        rw [turn]
        exact Lock.holder_leave_of_ne (turns.inside other ⟨now, runs, called⟩) same

end OneTurn

/-! ### The log -/

/-- The log is made of the blocks of cycles that are over and the calls of the one that is
inside. Every cycle has come to its stage with the answers it was given, and the one that is
inside has made exactly those calls. -/
structure Traced (actions : List Action) (state : State sink)
    (closed : List (List (Party × Deed))) (current : List (Party × Deed)) : Prop where
  deeds : state.deeds = closed.flatten ++ current
  blocks : ∀ block ∈ closed, IsBlock state.settings.secrets block
  courses : ∀ party cycle, state.cycles party = some cycle → ∃ deeds,
    Course state.settings.secrets (answersOf party actions) deeds cycle.stage ∧
      (cycle.stage ≠ .queued → current = deeds.map (party, ·))
  idle : (∀ party, ¬ state.IsInside party) → current = []

namespace Traced

variable {state next : State sink} {actions : List Action} {action : Action}
  {closed : List (List (Party × Deed))} {current : List (Party × Deed)}

theorem start (settings : LoaderSettings) (sinks : Target → sink) :
    Traced [] (State.start settings sinks) [] [] where
  deeds := rfl
  blocks block member := absurd member List.not_mem_nil
  courses party cycle running := by cases running
  idle _ := rfl

/-- The calls of a cycle that is inside, with its commit if it has everything, are a block. -/
theorem isBlock_of_inside (traced : Traced actions state closed current) {party : Party}
    {cycle : Cycle} {made : List Deed} (running : state.cycles party = some cycle)
    (called : cycle.stage ≠ .queued)
    (closing : made = [] ∨ made = [.commit] ∧ ∃ batch, cycle.stage = .staged batch) :
    IsBlock state.settings.secrets (current ++ made.map (party, ·)) := by
  obtain ⟨deeds, course, isCurrent⟩ := traced.courses party cycle running
  obtain ⟨token, isPrefix⟩ := course.calls_prefix
  rw [isCurrent called, ← List.map_append]
  have nonempty : deeds ≠ [] := course.calls_ne_nil called
  rcases closing with rfl | ⟨rfl, batch, stage⟩
  · refine ⟨party, token, deeds, ?_, nonempty, .inl isPrefix⟩
    rw [List.append_nil]
  · rw [stage] at course
    obtain ⟨auth, values, -, -, all, -⟩ := course.fits
    exact ⟨party, auth.token, deeds ++ [.commit], rfl, by simp, .inr (by rw [all])⟩

/-- A cycle that begins has called nothing yet. -/
theorem begin (traced : Traced actions state closed current) {party : Party}
    {delivery : Delivery} (same : next.settings = state.settings)
    (idle : state.cycles party = none)
    (cycles : next.cycles = Function.update state.cycles party (some { delivery }))
    (deeds : next.deeds = state.deeds) (fresh : ∀ answers, action.answersAfter party answers = [])
    (others : ∀ other ≠ party, ∀ answers, action.answersAfter other answers = answers) :
    Traced (actions ++ [action]) next closed current := by
  refine ⟨deeds.trans traced.deeds, same ▸ traced.blocks, ?_, ?_⟩
  · intro other cycle running
    rw [cycles] at running
    rw [answersOf_append_singleton, same]
    by_cases isParty : other = party
    · rw [isParty, Function.update_self] at running
      cases running
      rw [isParty, fresh]
      exact ⟨[], .start, fun called => absurd rfl called⟩
    · rw [Function.update_of_ne isParty] at running
      rw [others other isParty]
      exact traced.courses other cycle running
  · intro nobody
    refine traced.idle fun other isInside => nobody other ?_
    obtain ⟨cycle, running, called⟩ := isInside
    have isOther : other ≠ party := by
      rintro rfl
      rw [idle] at running
      cases running
    exact ⟨cycle, by rwa [cycles, Function.update_of_ne isOther], called⟩

/-- The calls of a cycle that holds its turn are the open block. -/
theorem current_of_holder (turns : OneTurn state) (traced : Traced actions state closed current)
    {party : Party} {cycle : Cycle} {answers : List Answer} {deeds : List Deed}
    (held : state.turn.holder = some party) (running : state.cycles party = some cycle)
    (course : Course state.settings.secrets answers deeds cycle.stage)
    (isCurrent : cycle.stage ≠ .queued → current = deeds.map (party, ·)) :
    current = deeds.map (party, ·) := by
  by_cases queued : cycle.stage = .queued
  · rw [queued] at course
    rw [course.fits.2]
    -- Whoever is inside holds the lock, and that is this cycle, which has not called yet.
    refine traced.idle fun other isInside => ?_
    have isParty : other = party :=
      Option.some.inj ((turns.inside other isInside).symm.trans held)
    obtain ⟨inside, runs, called⟩ := isInside
    rw [isParty, running] at runs
    cases runs
    exact called queued
  · exact isCurrent queued

/-- A cycle that moves on adds its calls to the open block. -/
theorem move (turns : OneTurn state) (traced : Traced actions state closed current)
    {party : Party} {cycle : Cycle} {after : Stage} {heard : List Answer} {made : List Deed}
    (same : next.settings = state.settings) (running : state.cycles party = some cycle)
    (held : state.turn.holder = some party)
    (advance : Advance state.settings.secrets cycle.stage heard made after)
    (cycles : next.cycles =
      Function.update state.cycles party (some { cycle with stage := after }))
    (deeds : next.deeds = state.deeds ++ made.map (party, ·))
    (answered : ∀ answers, action.answersAfter party answers = answers ++ heard)
    (others : ∀ other ≠ party, ∀ answers, action.answersAfter other answers = answers) :
    Traced (actions ++ [action]) next closed (current ++ made.map (party, ·)) := by
  obtain ⟨before, course, isCurrent⟩ := traced.courses party cycle running
  refine ⟨?_, same ▸ traced.blocks, ?_, ?_⟩
  · rw [deeds, traced.deeds, List.append_assoc]
  · intro other otherCycle runs
    rw [cycles] at runs
    rw [answersOf_append_singleton, same]
    by_cases isParty : other = party
    · rw [isParty, Function.update_self] at runs
      cases runs
      rw [isParty, answered]
      refine ⟨before ++ made, course.step advance, fun _ => ?_⟩
      rw [current_of_holder turns traced held running course isCurrent, List.map_append]
    · rw [Function.update_of_ne isParty] at runs
      rw [others other isParty]
      obtain ⟨otherDeeds, otherCourse, -⟩ := traced.courses other otherCycle runs
      refine ⟨otherDeeds, otherCourse, fun called => absurd ?_ isParty⟩
      exact Option.some.inj ((turns.inside other ⟨otherCycle, runs, called⟩).symm.trans held)
  · intro nobody
    refine absurd ⟨{ cycle with stage := after }, ?_, advance.after_ne_queued⟩ (nobody party)
    rw [cycles, Function.update_self]

/-- Once a cycle is over, the other cycles are those that there were. -/
theorem courses_of_ended (traced : Traced actions state closed current) {party : Party}
    (same : next.settings = state.settings)
    (cycles : next.cycles = Function.update state.cycles party none)
    (others : ∀ other ≠ party, ∀ answers, action.answersAfter other answers = answers)
    {other : Party} {cycle : Cycle} (running : next.cycles other = some cycle) :
    other ≠ party ∧ state.cycles other = some cycle ∧ ∃ deeds,
      Course next.settings.secrets (answersOf other (actions ++ [action])) deeds cycle.stage ∧
        (cycle.stage ≠ .queued → current = deeds.map (other, ·)) := by
  rw [cycles] at running
  have isOther : other ≠ party := by
    rintro rfl
    rw [Function.update_self] at running
    cases running
  rw [Function.update_of_ne isOther] at running
  rw [answersOf_append_singleton, others other isOther, same]
  exact ⟨isOther, running, traced.courses other cycle running⟩

/-- A queued cycle that is given up leaves the log as it is. -/
theorem giveUp (traced : Traced actions state closed current) {party : Party} {cycle : Cycle}
    (same : next.settings = state.settings) (running : state.cycles party = some cycle)
    (queued : cycle.stage = .queued)
    (cycles : next.cycles = Function.update state.cycles party none)
    (deeds : next.deeds = state.deeds)
    (others : ∀ other ≠ party, ∀ answers, action.answersAfter other answers = answers) :
    Traced (actions ++ [action]) next closed current := by
  refine ⟨deeds.trans traced.deeds, same ▸ traced.blocks, ?_, ?_⟩
  · intro other otherCycle runs
    exact (traced.courses_of_ended same cycles others runs).2.2
  · intro nobody
    refine traced.idle fun other isInside => nobody other ?_
    obtain ⟨otherCycle, runs, called⟩ := isInside
    have isOther : other ≠ party := by
      rintro rfl
      rw [running] at runs
      cases runs
      exact called queued
    exact ⟨otherCycle, by rwa [cycles, Function.update_of_ne isOther], called⟩

/-- A cycle that was inside closes its block when it is over. -/
theorem close (turns : OneTurn state) (traced : Traced actions state closed current)
    {party : Party} {cycle : Cycle} {made : List Deed} (same : next.settings = state.settings)
    (running : state.cycles party = some cycle) (called : cycle.stage ≠ .queued)
    (closing : made = [] ∨ made = [.commit] ∧ ∃ batch, cycle.stage = .staged batch)
    (cycles : next.cycles = Function.update state.cycles party none)
    (deeds : next.deeds = state.deeds ++ made.map (party, ·))
    (others : ∀ other ≠ party, ∀ answers, action.answersAfter other answers = answers) :
    Traced (actions ++ [action]) next (closed ++ [current ++ made.map (party, ·)]) [] := by
  refine ⟨?_, ?_, ?_, fun _ => rfl⟩
  · rw [deeds, traced.deeds]
    simp
  · intro block member
    rw [same]
    rcases List.mem_append.mp member with earlier | last
    · exact traced.blocks block earlier
    · rw [List.mem_singleton.mp last]
      exact traced.isBlock_of_inside running called closing
  · intro other otherCycle runs
    obtain ⟨isOther, runs, otherDeeds, course, -⟩ :=
      traced.courses_of_ended same cycles others runs
    refine ⟨otherDeeds, course, fun otherCalled => absurd ?_ isOther⟩
    exact turns.unique ⟨otherCycle, runs, otherCalled⟩ ⟨cycle, running, called⟩

theorem step (turns : OneTurn state) (traced : Traced actions state closed current)
    (same : next.settings = state.settings) (step : CycleStep state action next) :
    ∃ closed current, Traced (actions ++ [action]) next closed current := by
  cases step with
  | apart cycles turn deeds unanswered =>
    refine ⟨closed, current, deeds.trans traced.deeds, same ▸ traced.blocks, ?_, ?_⟩
    · rw [cycles, same]
      simpa only [answersOf_append_singleton, unanswered] using traced.courses
    · rw [show next.IsInside = state.IsInside by unfold State.IsInside; rw [cycles]]
      exact traced.idle
  | begun party delivery idle cycles turn deeds fresh others =>
    exact ⟨closed, current, traced.begin same idle cycles deeds fresh others⟩
  | moved party cycle after heard made running first advance cycles turn deeds answered others =>
    have held : state.turn.holder = some party := turns.holder_of_move running first
    exact ⟨closed, _, traced.move turns same running held advance cycles deeds answered others⟩
  | ended party cycle made running closing cycles turn deeds others =>
    by_cases queued : cycle.stage = .queued
    · have quiet : made = [] := by
        rcases closing with quiet | ⟨-, batch, staged⟩
        · exact quiet
        · rw [queued] at staged
          cases staged
      rw [quiet, List.map_nil, List.append_nil] at deeds
      exact ⟨closed, current, traced.giveUp same running queued cycles deeds others⟩
    · exact ⟨_, [], traced.close turns same running queued closing cycles deeds others⟩

end Traced

/-! ### Coming inside and leaving -/

section

variable {state next : State sink} {action : Action}

/-- A cycle comes inside with its call for a token. -/
theorem CycleStep.asks_of_enters (step : CycleStep state action next) {party : Party}
    (outside : ¬ state.IsInside party) (isInside : next.IsInside party) :
    next.deeds = state.deeds ++ [(party, .askToken)] := by
  obtain ⟨inside, runs, called⟩ := isInside
  cases step with
  | apart cycles turn deeds unanswered =>
    rw [cycles] at runs
    exact absurd ⟨inside, runs, called⟩ outside
  | begun other delivery idle cycles turn deeds fresh others =>
    rw [cycles] at runs
    by_cases same : party = other
    · rw [same, Function.update_self] at runs
      cases runs
      exact absurd rfl called
    · rw [Function.update_of_ne same] at runs
      exact absurd ⟨inside, runs, called⟩ outside
  | moved other cycle after heard made running first advance cycles turn deeds answered others =>
    rw [cycles] at runs
    by_cases same : party = other
    · subst same
      have queued : cycle.stage = .queued := by
        by_contra called
        exact outside ⟨cycle, running, called⟩
      rw [queued] at advance
      cases advance
      exact deeds
    · rw [Function.update_of_ne same] at runs
      exact absurd ⟨inside, runs, called⟩ outside
  | ended other cycle made running closing cycles turn deeds others =>
    rw [cycles] at runs
    by_cases same : party = other
    · rw [same, Function.update_self] at runs
      cases runs
    · rw [Function.update_of_ne same] at runs
      exact absurd ⟨inside, runs, called⟩ outside

/-- A cycle that is inside stays there until it is over. -/
theorem CycleStep.over_of_leaves (step : CycleStep state action next) {party : Party}
    (isInside : state.IsInside party) (outside : ¬ next.IsInside party) :
    next.cycles party = none := by
  obtain ⟨inside, runs, called⟩ := isInside
  cases step with
  | apart cycles turn deeds unanswered =>
    exact absurd ⟨inside, by rwa [cycles], called⟩ outside
  | begun other delivery idle cycles turn deeds fresh others =>
    have isOther : party ≠ other := by
      rintro rfl
      rw [idle] at runs
      cases runs
    exact absurd ⟨inside, by rwa [cycles, Function.update_of_ne isOther], called⟩ outside
  | moved other cycle after heard made running first advance cycles turn deeds answered others =>
    refine absurd ?_ outside
    by_cases same : party = other
    · refine ⟨{ cycle with stage := after }, ?_, advance.after_ne_queued⟩
      rw [cycles, same, Function.update_self]
    · exact ⟨inside, by rwa [cycles, Function.update_of_ne same], called⟩
  | ended other cycle made running closing cycles turn deeds others =>
    by_cases same : party = other
    · rw [cycles, same, Function.update_self]
    · exact absurd ⟨inside, by rwa [cycles, Function.update_of_ne same], called⟩ outside

/-- While a cycle is inside, nobody else calls or commits. -/
theorem CycleStep.deeds_of_inside (step : CycleStep state action next) (turns : OneTurn state)
    {party : Party} (isInside : state.IsInside party) :
    ∃ made : List Deed, next.deeds = state.deeds ++ made.map (party, ·) := by
  have held : state.turn.holder = some party := turns.inside party isInside
  cases step with
  | apart cycles turn deeds unanswered => exact ⟨[], deeds.trans (List.append_nil _).symm⟩
  | begun other delivery idle cycles turn deeds fresh others =>
    exact ⟨[], deeds.trans (List.append_nil _).symm⟩
  | moved other cycle after heard made running first advance cycles turn deeds answered others =>
    have same : other = party :=
      Option.some.inj ((turns.holder_of_move running first).symm.trans held)
    exact ⟨made, same ▸ deeds⟩
  | ended other cycle made running closing cycles turn deeds others =>
    rcases closing with rfl | ⟨rfl, batch, staged⟩
    · exact ⟨[], deeds⟩
    · have same : other = party :=
        turns.unique ⟨cycle, running, by rw [staged]; exact Stage.noConfusion⟩ isInside
      exact ⟨[.commit], same ▸ deeds⟩

end

/-! ### Runs -/

variable [ConfigSink sink] {settings : LoaderSettings} {sinks : Target → sink}
  {actions : List Action} {state : State sink}

theorem oneTurn_of_run (run : (State.start settings sinks).run? actions = some state) :
    OneTurn state :=
  State.run_induction (fun _ state => OneTurn state) (.start settings sinks)
    (fun _ turns move => turns.step (.of_move move)) run

theorem traced_of_run (run : (State.start settings sinks).run? actions = some state) :
    ∃ closed current, Traced actions state closed current :=
  State.run_induction (fun actions state => ∃ closed current, Traced actions state closed current)
    ⟨[], [], .start settings sinks⟩
    (fun run ⟨_, _, traced⟩ move =>
      traced.step (oneTurn_of_run run) move.settings_eq (.of_move move)) run

/-! ### Mutual exclusion -/

/-- From its call for a token until it is over, a cycle is alone: no other is inside, and no
other calls or commits. So the log is a sequence of blocks, each the first calls of one cycle or
all of them with its commit at the end. -/
theorem cycles_take_turns (run : (State.start settings sinks).run? actions = some state) :
    (∀ first second, state.IsInside first → state.IsInside second → first = second) ∧
    (∀ action next, state.step? action = some next → ∀ party,
      (¬ state.IsInside party → next.IsInside party →
        next.deeds = state.deeds ++ [(party, .askToken)]) ∧
      (state.IsInside party → ¬ next.IsInside party → next.cycles party = none) ∧
      (state.IsInside party →
        ∃ made : List Deed, next.deeds = state.deeds ++ made.map (party, ·))) ∧
    ∃ blocks : List (List (Party × Deed)), state.deeds = blocks.flatten ∧
      ∀ block ∈ blocks, IsBlock settings.secrets block := by
  have turns : OneTurn state := oneTurn_of_run run
  refine ⟨fun _ _ => turns.unique, fun action next step party => ?_, ?_⟩
  · have move : CycleStep state action next := .of_move (.of_step? step)
    exact ⟨move.asks_of_enters, move.over_of_leaves, move.deeds_of_inside turns⟩
  · obtain ⟨closed, current, traced⟩ := traced_of_run run
    have built : state.settings = settings := State.settings_of_run run
    have blocks := traced.blocks
    rw [built] at blocks
    by_cases somebody : ∃ party, state.IsInside party
    · obtain ⟨party, cycle, running, called⟩ := somebody
      have last : IsBlock settings.secrets current := by
        have block := traced.isBlock_of_inside running called (.inl rfl)
        rwa [List.map_nil, List.append_nil, built] at block
      refine ⟨closed ++ [current], ?_, fun block member => ?_⟩
      · rw [traced.deeds]
        simp
      · rcases List.mem_append.mp member with earlier | isLast
        · exact blocks block earlier
        · rw [List.mem_singleton.mp isLast]
          exact last
    · refine ⟨closed, ?_, blocks⟩
      rw [traced.deeds, traced.idle (not_exists.mp somebody), List.append_nil]

/-- Two secrets, kept fresh in the background from the start on. -/
def twoSecrets : LoaderSettings where
  secrets := [⟨"a", none⟩, ⟨"b", some "B_"⟩]
  maxRetry := 1
  retryDelay := Duration.ofSeconds 1
  stopOnFailure := false
  initialDelay := Duration.zero
  watched := true

/-- Three parties contend for their turn. The first is given up inside, the second fails at its
first read, and the third has just come inside. -/
def contention : List Action :=
  [.begin 0 .locking, .enter (.host 0), .arm, .due, .launch, .begin 1 (.direct (.own 1)),
    .tokenReturned (.host 0) (.ok ⟨"s", Duration.ofSeconds 60⟩), .abandon 0, .enter .watcher,
    .tokenReturned .watcher (.ok ⟨"t", Duration.ofSeconds 60⟩), .tokenTaken .watcher,
    .readReturned .watcher (.error .rateLimited), .enter (.host 1)]

theorem cycles_take_turns_in_contention : ∃ state,
    (State.start twoSecrets fun _ => Values.empty).run? contention = some state ∧
      state.IsInside (.host 1) ∧
      (∀ party, state.IsInside party → party = .host 1) ∧
      ∃ blocks : List (List (Party × Deed)), state.deeds = blocks.flatten ∧
        ∀ block ∈ blocks, IsBlock twoSecrets.secrets block := by
  obtain ⟨state, run, isInside⟩ : ∃ state,
      (State.start twoSecrets fun _ => Values.empty).run? contention = some state ∧
        state.IsInside (.host 1) := ⟨_, rfl, _, rfl, Stage.noConfusion⟩
  have turns := cycles_take_turns run
  exact ⟨state, run, isInside, fun party other => turns.1 party _ other isInside, turns.2.2⟩

end SecretRenewal.Loader
