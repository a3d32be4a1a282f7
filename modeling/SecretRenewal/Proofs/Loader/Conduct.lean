/-
This file proves how a cycle calls. Whatever the calls return and whoever else is at work meanwhile,
a cycle that returns has asked for a token once, handed it to the store once and read the secrets
in their order, each once, up to the first read that failed; the error it returns is that of the
call that failed, and the interval it leaves is for exactly the leases that it was granted. A cycle
that is answered every time, and that nobody keeps from its sink, returns.
-/
import SecretRenewal.Proofs.Lease.Aggregation
import SecretRenewal.Proofs.Loader.Returns

namespace SecretRenewal.Loader

/-! ### The conduct of a cycle -/

/-- What a cycle that returns was answered, what it did, and what it returned. -/
inductive Conduct (secrets : List SecretDescriptor) :
    List Answer → List Deed → Except LoadError Unit → Prop
  /-- There was no token, and it did nothing more. -/
  | refused (error : LoadError) :
      Conduct secrets [.token (.error error)] [.askToken] (.error error)
  /-- A read failed, and it did nothing more. -/
  | brokenOff (auth : AuthToken) (done rest : List SecretDescriptor)
      (failing : SecretDescriptor) (values : List Secret) (error : LoadError)
      (split : secrets = done ++ failing :: rest) (same : done.length = values.length) :
      Conduct secrets (goodAnswers auth values ++ [.secret (.error error)])
        (callsFor (done ++ [failing]) auth.token) (.error error)
  /-- It was given everything, and committed. -/
  | whole (auth : AuthToken) (values : List Secret) (same : secrets.length = values.length) :
      Conduct secrets (goodAnswers auth values) (callsFor secrets auth.token ++ [.commit]) (.ok ())

namespace Conduct

variable {secrets : List SecretDescriptor} {answers : List Answer} {calls others : List Deed}
  {result other : Except LoadError Unit}

/-- A good answer does not tell of an error. -/
theorem goodAnswers_ne_append_error {auth first : AuthToken} {values earlier : List Secret}
    {error : LoadError} :
    goodAnswers auth values ≠ goodAnswers first earlier ++ [.secret (.error error)] := by
  intro same
  have last : Answer.secret (.error error) ∈ goodAnswers auth values := by
    rw [same]
    exact List.mem_append_right _ (List.mem_singleton_self _)
  simp [goodAnswers] at last

/-- A cycle returns well exactly if every call was answered well. -/
theorem ok_iff (conduct : Conduct secrets answers calls result) :
    result = .ok () ↔
      ∃ auth values, answers = goodAnswers auth values ∧ secrets.length = values.length := by
  cases conduct with
  | refused error =>
    constructor
    · nofun
    · rintro ⟨auth, values, same, -⟩
      cases same
  | brokenOff auth done rest failing values error split same =>
    constructor
    · nofun
    · rintro ⟨other, others, good, -⟩
      exact absurd good.symm goodAnswers_ne_append_error
  | whole auth values same => exact ⟨fun _ => ⟨auth, values, rfl, same⟩, fun _ => rfl⟩

/-- The answers settle what a cycle does and returns. -/
theorem unique (conduct : Conduct secrets answers calls result)
    (also : Conduct secrets answers others other) : calls = others ∧ result = other := by
  cases conduct with
  | refused error =>
    -- The other conducts begin with a token.
    generalize told : [Answer.token (.error error)] = heard at also
    cases also with
    | refused other =>
      cases told
      exact ⟨rfl, rfl⟩
    | brokenOff auth done rest failing values error split same => cases told
    | whole auth values same => cases told
  | brokenOff auth done rest failing values error split same =>
    generalize told : goodAnswers auth values ++ [.secret (.error error)] = heard at also
    cases also with
    | refused other => cases told
    | brokenOff first begun left last earlier other divide alike =>
      obtain ⟨good, errors⟩ := List.append_inj' told rfl
      cases errors
      obtain ⟨rfl, rfl⟩ := goodAnswers_inj good
      obtain ⟨rfl, rfl, -⟩ : done = begun ∧ failing = last ∧ rest = left := by
        obtain ⟨front, back⟩ := List.append_inj (split.symm.trans divide) (same.trans alike.symm)
        exact ⟨front, List.cons.inj back⟩
      exact ⟨rfl, rfl⟩
    | whole first earlier alike => exact absurd told.symm goodAnswers_ne_append_error
  | whole auth values same =>
    generalize told : goodAnswers auth values = heard at also
    cases also with
    | refused other => cases told
    | brokenOff first begun left last earlier other divide alike =>
      exact absurd told goodAnswers_ne_append_error
    | whole first earlier alike =>
      obtain ⟨rfl, rfl⟩ := goodAnswers_inj told
      exact ⟨rfl, rfl⟩

end Conduct

variable {sink : Type}

/-! ### What a party has done -/

namespace State

/-- The calls and commits of one party so far, the oldest first. -/
def callsOf (state : State sink) (party : Party) : List Deed :=
  state.deeds.filterMap fun deed => if deed.1 = party then some deed.2 else none

theorem callsOf_append {state next : State sink} {party : Party} {made : List Deed}
    (deeds : next.deeds = state.deeds ++ made.map (party, ·)) :
    next.callsOf party = state.callsOf party ++ made := by
  unfold callsOf
  rw [deeds, List.filterMap_append, List.filterMap_map]
  simp

theorem callsOf_append_of_ne {state next : State sink} {party other : Party} {made : List Deed}
    (different : other ≠ party) (deeds : next.deeds = state.deeds ++ made.map (other, ·)) :
    next.callsOf party = state.callsOf party := by
  unfold callsOf
  rw [deeds, List.filterMap_append, List.filterMap_map]
  simp [different]

end State

/-- The cycle of a party is on its way: it has come to its stage by the answers it was given and the
calls that the party has made since it began. -/
def Underway (party : Party) (before : List Deed) (answers : List Answer) (state : State sink)
    (cycle : Cycle) : Prop :=
  state.cycles party = some cycle ∧ ∃ calls,
    Course state.settings.secrets answers calls cycle.stage ∧
      state.callsOf party = before ++ calls

section

variable {state next : State sink} {action : Action} {party : Party} {before : List Deed}
  {actions : List Action} {cycle : Cycle}

theorem Action.answersAfter_of_begins {answers : List Answer}
    (begins : action.BeginsCycleOf party) : action.answersAfter party answers = [] := by
  cases action with
  | begin host delivery => exact if_pos begins
  | launch => exact if_pos begins
  | _ => cases begins

/-- A cycle is still on its way where nothing has changed for its party. -/
theorem Underway.unchanged {answers : List Answer}
    (underway : Underway party before answers state cycle)
    (settings : next.settings = state.settings)
    (cycles : next.cycles party = state.cycles party)
    (calls : next.callsOf party = state.callsOf party) :
    Underway party before answers next cycle := by
  obtain ⟨running, made, course, sofar⟩ := underway
  exact ⟨cycles.trans running, made, settings ▸ course, calls.trans sofar⟩

/-- A step leaves a cycle on its way or ends it. -/
theorem Underway.step (underway : Underway party before (answersOf party actions) state cycle)
    (settings : next.settings = state.settings) (step : CycleStep state action next) :
    next.cycles party = none ∨
      ∃ after, Underway party before (answersOf party (actions ++ [action])) next after := by
  rw [answersOf_append_singleton]
  cases step with
  | apart cycles turn deeds unanswered =>
    rw [unanswered]
    exact .inr ⟨cycle, underway.unchanged settings (by rw [cycles])
      (by rw [State.callsOf, deeds, State.callsOf])⟩
  | begun other delivery idle cycles turn deeds fresh others =>
    have isOther : party ≠ other := by
      rintro rfl
      rw [underway.1] at idle
      cases idle
    rw [others party isOther]
    exact .inr ⟨cycle, underway.unchanged settings (by rw [cycles, Function.update_of_ne isOther])
      (by rw [State.callsOf, deeds, State.callsOf])⟩
  | moved other moved after heard made runs first advance cycles turn deeds answered others =>
    by_cases same : party = other
    · subst same
      obtain ⟨running, calls, course, sofar⟩ := underway
      cases Option.some.inj (running.symm.trans runs)
      refine .inr ⟨{ cycle with stage := after }, by rw [cycles, Function.update_self],
        calls ++ made, ?_, ?_⟩
      · rw [settings, answered]
        exact course.step advance
      · rw [State.callsOf_append deeds, sofar, List.append_assoc]
    · rw [others party same]
      exact .inr ⟨cycle, underway.unchanged settings (by rw [cycles, Function.update_of_ne same])
        (State.callsOf_append_of_ne (Ne.symm same) deeds)⟩
  | ended other last made runs closing cycles turn deeds others =>
    by_cases same : party = other
    · left
      rw [cycles, same, Function.update_self]
    · rw [others party same]
      exact .inr ⟨cycle, underway.unchanged settings (by rw [cycles, Function.update_of_ne same])
        (State.callsOf_append_of_ne (Ne.symm same) deeds)⟩

variable [ConfigSink sink]

theorem Move.begins (move : Move state action next) (begins : action.BeginsCycleOf party) :
    ∃ delivery, state.cycles party = none ∧ next = state.beginCycle party delivery := by
  cases move with
  | begin idle guarded =>
    cases begins
    exact ⟨_, idle, rfl⟩
  | launch active phase idle =>
    cases begins
    exact ⟨_, idle, rfl⟩
  | _ => cases begins

/-- From its begin on a cycle is on its way until it is over. -/
theorem underway_of_run {settings : LoaderSettings} {sinks : Target → sink}
    {earlier during : List Action} {begun : Action} {last : State sink}
    (run : (State.start settings sinks).run? (earlier ++ [begun]) = some state)
    (begins : begun.BeginsCycleOf party) (further : state.run? during = some last)
    (same : ∀ step ∈ during, ¬step.BeginsCycleOf party) :
    last.cycles party = none ∨ ∃ cycle, Underway party (state.callsOf party)
      (answersOf party (earlier ++ [begun] ++ during)) last cycle := by
  have fresh : ∃ cycle, Underway party (state.callsOf party)
      (answersOf party (earlier ++ [begun])) state cycle := by
    rw [State.run?_append] at run
    obtain ⟨before, -, step⟩ := Option.bind_eq_some_iff.mp run
    obtain ⟨after, step, same⟩ := Option.bind_eq_some_iff.mp step
    cases same
    obtain ⟨delivery, idle, rfl⟩ := (Move.of_step? step).begins begins
    rw [answersOf_append_singleton, Action.answersAfter_of_begins begins]
    refine ⟨{ delivery }, ?_, [], .start, (List.append_nil _).symm⟩
    rw [State.beginCycle_eq]
    exact Function.update_self ..
  refine State.run_induction (fun during last => (∀ step ∈ during, ¬step.BeginsCycleOf party) →
    last.cycles party = none ∨ ∃ cycle, Underway party (state.callsOf party)
      (answersOf party (earlier ++ [begun] ++ during)) last cycle)
    (fun _ => .inr ?_) ?_ further same
  · rwa [List.append_nil]
  · intro during middle action next _ inductionHypothesis move same
    have step : CycleStep middle action next := .of_move move
    rcases inductionHypothesis fun step member => same step (List.mem_append_left _ member) with
      idle | ⟨cycle, underway⟩
    · exact .inl (step.idle_of_idle idle (same action (List.mem_append_right _ (by simp))))
    · rw [← List.append_assoc]
      exact underway.step move.settings_eq step

/-- A cycle on its way that returns has conducted itself. -/
theorem Underway.conduct
    (underway : Underway party before (answersOf party actions) state cycle)
    {result : Except LoadError Unit} (returns : Returns state party cycle action result next) :
    ∃ calls, Conduct state.settings.secrets (answersOf party (actions ++ [action])) calls result ∧
      next.callsOf party = before ++ calls := by
  obtain ⟨running, calls, course, sofar⟩ := underway
  rw [answersOf_append_singleton]
  cases returns with
  | @refused error stage =>
    rw [stage] at course
    obtain ⟨answers, rfl⟩ := course.fits
    rw [answers, Action.answersAfter, if_pos rfl]
    refine ⟨[.askToken], .refused error, ?_⟩
    rw [State.callsOf, State.deeds_finish]
    exact sofar
  | @failed error gathering stage =>
    rw [stage] at course
    obtain ⟨auth, done, values, split, same, answers, rfl, -⟩ := course.fits
    rw [answers, Action.answersAfter, if_pos rfl]
    refine ⟨_, .brokenOff auth done gathering.remaining gathering.current values error split same,
      ?_⟩
    rw [State.callsOf, State.deeds_finish]
    exact sofar
  | @committed batch stage =>
    rw [stage] at course
    obtain ⟨auth, values, same, answers, rfl, -⟩ := course.fits
    have unanswered : (Action.commit party).answersAfter party (answersOf party actions) =
        goodAnswers auth values := answers
    rw [unanswered]
    refine ⟨_, .whole auth values same, ?_⟩
    have deeds : ((state.commit party cycle.delivery.target batch).finish party (.ok ())).deeds =
        state.deeds ++ [Deed.commit].map (party, ·) :=
      (State.deeds_finish ..).trans (State.deeds_commit ..)
    rw [State.callsOf_append deeds, sofar, List.append_assoc]

/-- The leases that a cycle has been granted. -/
def grantedLeases (auth : AuthToken) (values : List Secret) : List Lease :=
  .ofToken auth.lease :: values.map fun value => .ofSecret value.lease

/-- The interval that a cycle leaves is that of all its leases together. -/
theorem aggregate_grantedLeases (auth : AuthToken) {values : List Secret}
    (nonempty : values ≠ []) :
    Lease.aggregate (grantedLeases auth values) =
      some (intervalFor auth.lease (values.map Secret.lease)) := by
  have leases : grantedLeases auth values =
      .ofToken auth.lease :: (values.map Secret.lease).map .ofSecret := by
    simp [grantedLeases]
  unfold intervalFor
  cases isShortest : Lease.shortest? (values.map Secret.lease) with
  | none => simp [Lease.shortest?_eq_none_iff, nonempty] at isShortest
  | some shortest =>
    rw [leases, Lease.aggregate_token_secrets auth.lease isShortest]
    rfl

/-- What is known of a cycle that has returned: how it has conducted itself, whether it returned
well, and if so the interval that it left. -/
structure Returned (secrets : List SecretDescriptor) (party : Party) (began next : State sink)
    (answers : List Answer) (calls : List Deed) (result : Except LoadError Unit) : Prop where
  conduct : Conduct secrets answers calls result
  calls : next.callsOf party = began.callsOf party ++ calls
  well : result = .ok () ↔
    ∃ auth values, answers = goodAnswers auth values ∧ secrets.length = values.length
  interval : ∀ auth values, answers = goodAnswers auth values → result = .ok () →
    ∃ interval shortest, next.interval = some interval ∧
      Lease.IsShortest (grantedLeases auth values) shortest ∧
      interval.nanos = 3 * shortest.nanos / 4 ∧
      ∀ leases, leases.Perm (grantedLeases auth values) →
        Lease.aggregate leases = some interval

/-- However a run goes on after a cycle has begun, the cycle has conducted itself if it returns. -/
theorem returned_of_run {settings : LoaderSettings} {sinks : Target → sink}
    {earlier during : List Action} {begun : Action} {last : State sink}
    {result : Except LoadError Unit} (nonempty : settings.secrets ≠ [])
    (run : (State.start settings sinks).run? (earlier ++ [begun]) = some state)
    (begins : begun.BeginsCycleOf party) (further : state.run? during = some last)
    (same : ∀ step ∈ during, ¬step.BeginsCycleOf party) (step : last.step? action = some next)
    (returned : next.results = last.results ++ [(party, result)]) :
    ∃ calls, Returned settings.secrets party state next
      (answersOf party (earlier ++ [begun] ++ during ++ [action])) calls result := by
  have whole : (State.start settings sinks).run? (earlier ++ [begun] ++ during) = some last := by
    rw [State.run?_append, run]
    exact further
  have built : last.settings = settings := State.settings_of_run whole
  obtain ⟨cycle, running, returns⟩ := (Move.of_step? step).returns returned
  rcases underway_of_run run begins further same with idle | ⟨other, underway⟩
  · rw [idle] at running
    cases running
  · cases Option.some.inj (underway.1.symm.trans running)
    obtain ⟨calls, conduct, sofar⟩ := underway.conduct returns
    rw [built] at conduct
    refine ⟨calls, conduct, sofar, conduct.ok_iff, fun auth values good well => ?_⟩
    subst well
    obtain ⟨_, given, secrets, -, count, answers, commits⟩ :=
      commits_of_returned whole step returned
    rw [answersOf_append_singleton] at good
    cases returns with
    | committed stage =>
      obtain ⟨rfl, rfl⟩ := goodAnswers_inj (answers.symm.trans good)
      have someGiven : secrets ≠ [] := by
        rintro rfl
        exact nonempty (List.length_eq_zero_iff.mp count)
      have aggregates := aggregate_grantedLeases given someGiven
      obtain ⟨shortest, isShortest, isExact⟩ := Lease.aggregate_eq_some_iff.mp aggregates
      refine ⟨_, shortest, commits.interval, isShortest, isExact, fun leases shuffled => ?_⟩
      rw [Lease.aggregate_perm shuffled, aggregates]
      rfl

end

/-! ### Cycles that are answered -/

namespace Outside

variable {world : Type} (outside : Outside world)

/-- What becomes of a world in which some calls are made one after another, and the answers that it
gives. -/
def perform : world → List Deed → world × List Answer
  | before, [] => (before, [])
  | before, .askToken :: rest =>
    let (after, answer) := outside.askToken before
    let (last, answers) := perform after rest
    (last, .token answer :: answers)
  | before, .handToken token :: rest => perform (outside.handToken before token) rest
  | before, .read path :: rest =>
    let (after, answer) := outside.read before path
    let (last, answers) := perform after rest
    (last, .secret answer :: answers)
  | before, .commit :: rest => perform before rest

/-- Once it has everything, a cycle calls no more. -/
theorem perform_append_commit (before : world) (calls : List Deed) :
    outside.perform before (calls ++ [.commit]) = outside.perform before calls := by
  induction calls generalizing before with
  | nil => rfl
  | cons call rest inductionHypothesis =>
    cases call <;> simp only [List.cons_append, perform, inductionHypothesis]

end Outside

/-- The actions of a cycle that is given an answer. -/
def Answer.actions (party : Party) : Answer → List Action
  | .token (.ok auth) => [.tokenReturned party (.ok auth), .tokenTaken party]
  | .token (.error error) => [.tokenReturned party (.error error)]
  | .secret answer => [.readReturned party answer]

theorem flatMap_goodAnswers (party : Party) (auth : AuthToken) (values : List Secret) :
    (goodAnswers auth values).flatMap (Answer.actions party) =
      .tokenReturned party (.ok auth) :: .tokenTaken party ::
        values.map fun value => .readReturned party (.ok value) := by
  rw [goodAnswers, List.flatMap_cons, List.flatMap_map, List.map_eq_flatMap]
  rfl

/-- What a cycle does after its last answer: it writes, if all is well. -/
def closingActions (party : Party) (delivery : Delivery) : Except LoadError Unit → List Action
  | .ok () => Outside.writeActions party delivery
  | .error _ => []

section

variable {world : Type} (outside : Outside world) (party : Party) (delivery : Delivery)

/-- The reads of a cycle either all return well, or end with the first that fails. -/
theorem Outside.readActions_cases (before : world) (secrets : List SecretDescriptor) :
    ∃ values : List Secret,
      (secrets.length = values.length ∧
        outside.perform before (secrets.map fun secret => .read secret.path) =
          ((outside.readActions party delivery before secrets).1,
            values.map fun value => .secret (.ok value)) ∧
        (outside.readActions party delivery before secrets).2 =
          (values.map fun value => .readReturned party (.ok value)) ++
            writeActions party delivery) ∨
      ∃ done failing rest error, secrets = done ++ failing :: rest ∧
        done.length = values.length ∧
        outside.perform before ((done ++ [failing]).map fun secret => .read secret.path) =
          ((outside.readActions party delivery before secrets).1,
            (values.map fun value => .secret (.ok value)) ++ [.secret (.error error)]) ∧
        (outside.readActions party delivery before secrets).2 =
          (values.map fun value => .readReturned party (.ok value)) ++
            [.readReturned party (.error error)] := by
  induction secrets generalizing before with
  | nil => exact ⟨[], .inl ⟨rfl, rfl, rfl⟩⟩
  | cons secret rest inductionHypothesis =>
    obtain ⟨⟨after, answer⟩, read⟩ : ∃ given, outside.read before secret.path = given := ⟨_, rfl⟩
    cases answer with
    | error error =>
      refine ⟨[], .inr ⟨[], secret, rest, error, rfl, rfl, ?_, ?_⟩⟩
      · simp [perform, readActions, read]
      · simp [readActions, read]
    | ok value =>
      obtain ⟨values, whole | ⟨done, failing, left, error, split, same, performed, actions⟩⟩ :=
        inductionHypothesis after
      · obtain ⟨same, performed, actions⟩ := whole
        refine ⟨value :: values, .inl ⟨congrArg Nat.succ same, ?_, ?_⟩⟩
        · simp [perform, readActions, read, performed]
        · simp [readActions, read, actions]
      · refine ⟨value :: values, .inr ⟨secret :: done, failing, left, error, ?_,
          congrArg Nat.succ same, ?_, ?_⟩⟩
        · rw [split, List.cons_append]
        · rw [List.cons_append, List.map_cons]
          simp only [perform, readActions, read, performed, List.map_cons, List.cons_append]
        · simp [readActions, read, actions]

/-- Whatever it is answered, a cycle conducts itself. -/
theorem Outside.callActions_conduct (before : world) (secrets : List SecretDescriptor) :
    ∃ answers calls result, Conduct secrets answers calls result ∧
      outside.perform before calls =
        ((outside.callActions before party delivery secrets).1, answers) ∧
      (outside.callActions before party delivery secrets).2 =
        .enter party :: answers.flatMap (Answer.actions party) ++
          closingActions party delivery result := by
  obtain ⟨⟨after, answer⟩, asked⟩ : ∃ given, outside.askToken before = given := ⟨_, rfl⟩
  cases answer with
  | error error =>
    refine ⟨_, _, _, .refused error, ?_, ?_⟩
    · simp [perform, callActions, asked]
    · simp [callActions, asked, Answer.actions, closingActions]
  | ok auth =>
    obtain ⟨values, whole | ⟨done, failing, rest, error, split, same, performed, actions⟩⟩ :=
      outside.readActions_cases party delivery (outside.handToken after auth.token) secrets
    · obtain ⟨same, performed, actions⟩ := whole
      refine ⟨_, _, _, .whole auth values same, ?_, ?_⟩
      · rw [perform_append_commit]
        simp [callsFor, perform, callActions, asked, performed, goodAnswers]
      · rw [flatMap_goodAnswers]
        simp [callActions, asked, actions, closingActions]
    · refine ⟨_, _, _, .brokenOff auth done rest failing values error split same, ?_, ?_⟩
      · simp only [callsFor, perform, callActions, asked, performed]
        rfl
      · rw [List.flatMap_append, flatMap_goodAnswers]
        simp [callActions, asked, actions, Answer.actions, closingActions]

end

/-! ### Cycles that return -/

/-- A cycle that has got to a stage, may go on, and is kept from its sink by nobody. -/
structure Ready (party : Party) (delivery : Delivery) (stage : Stage) (state : State sink) :
    Prop where
  running : state.cycles party = some ⟨delivery, stage⟩
  acts : state.mayAct party = true
  free : delivery = .locking → state.sinkLock.claims = []

/-- The actions of a cycle that comes inside and gets its token and some secrets. -/
def openingActions (party : Party) (auth : AuthToken) (values : List Secret) : List Action :=
  [.enter party, .tokenReturned party (.ok auth), .tokenTaken party] ++
    values.map fun value => .readReturned party (.ok value)

theorem sameCycle_opening (party : Party) (auth : AuthToken) (values : List Secret) :
    ∀ step ∈ openingActions party auth values, ¬step.BeginsCycleOf party := by
  intro step member begins
  unfold openingActions at member
  simp only [List.mem_append, List.mem_cons, List.not_mem_nil, or_false, List.mem_map] at member
  rcases member with (rfl | rfl | rfl) | ⟨value, -, rfl⟩ <;> exact begins

/-- Whether a cycle at a stage has so many secrets left to read. -/
def Stage.Lacks (left : Nat) : Stage → Prop
  | .reading gathering => left = gathering.remaining.length + 1
  | .staged _ => left = 0
  | _ => False

theorem Stage.lacks_afterToken (secrets : List SecretDescriptor) (lease : Duration) :
    (Stage.afterToken secrets lease).Lacks secrets.length := by
  cases secrets <;> rfl

theorem Stage.lacks_afterRead {left : Nat} {gathering : Gathering}
    (lacks : (Stage.reading gathering).Lacks (left + 1)) (value : Secret) :
    (Stage.afterRead gathering value).Lacks left := by
  cases Nat.succ.inj lacks
  unfold afterRead
  cases gathering.remaining <;> rfl

namespace Ready

variable {party : Party} {delivery : Delivery} {stage after : Stage} {state next : State sink}

theorem active (ready : Ready party delivery stage state) :
    state.activeCycle? party = some ⟨delivery, stage⟩ :=
  State.activeCycle?_eq_some.mpr ⟨ready.acts, ready.running⟩

theorem moved (ready : Ready party delivery stage state)
    (cycles : next.cycles = Function.update state.cycles party (some ⟨delivery, after⟩))
    (watcher : next.watcher = state.watcher) (sinkLock : next.sinkLock = state.sinkLock) :
    Ready party delivery after next := by
  refine ⟨by rw [cycles, Function.update_self], ?_, fun locking => ?_⟩
  · have same : next.mayAct party = state.mayAct party := by
      cases party with
      | host number => rfl
      | watcher =>
        exact congrArg (Option.any fun watcher => watcher.workBranch? == some .work) watcher
    rw [same]
    exact ready.acts
  · rw [sinkLock]
    exact ready.free locking

theorem moveCycle (ready : Ready party delivery stage state) (after : Stage) :
    Ready party delivery after (state.moveCycle party ⟨delivery, stage⟩ after) := by
  rw [State.moveCycle_eq]
  exact ready.moved rfl rfl rfl

theorem note (ready : Ready party delivery stage state) (event : Event) :
    Ready party delivery stage (state.note event) := ⟨ready.running, ready.acts, ready.free⟩

theorem withToken (ready : Ready party delivery stage state) (token : String) :
    Ready party delivery stage { state with storeToken := some token } :=
  ⟨ready.running, ready.acts, ready.free⟩

variable [ConfigSink sink]

/-- A cycle whose turn it is gets to its first secret. -/
theorem run_token (ready : Ready party delivery .queued state)
    (turn : state.turn.holder = some party) (auth : AuthToken) :
    ∃ last stage, state.run? [.enter party, .tokenReturned party (.ok auth), .tokenTaken party] =
        some last ∧
      Ready party delivery stage last ∧ stage.Lacks state.settings.secrets.length ∧
      last.results = state.results := by
  have entered : Move state (.enter party) _ := .enter ready.active rfl turn
  have asked := (ready.moveCycle .authenticating).note (.asked party)
  have came : Move _ (.tokenReturned party (.ok auth)) _ := .tokenCame asked.active rfl
  have given := ((asked.moveCycle (.handingOver auth)).note (.leased party auth.lease)).note
    (.handed party auth.token)
  have taken : Move _ (.tokenTaken party) _ := .tokenTaken given.active rfl
  refine ⟨_, _, State.run?_append_of_move (State.run?_append_of_move (State.run?_of_move entered)
    came) taken, (given.withToken auth.token).moveCycle _, ?_, ?_⟩
  · rw [came.settings_eq.trans entered.settings_eq]
    exact Stage.lacks_afterToken ..
  · refine (State.results_moveCycle ..).trans (?_ : State.results (State.note _ _) = _)
    simp only [State.results_note, State.results_moveCycle, Event.result?, Option.toList_none,
      List.append_nil]

/-- A cycle that is given some of the secrets it lacks gets on by so many. -/
theorem run_values (ready : Ready party delivery stage state) {values : List Secret} {left : Nat}
    (lacks : stage.Lacks (values.length + left)) :
    ∃ last stage, state.run? (values.map fun value => .readReturned party (.ok value)) =
        some last ∧
      Ready party delivery stage last ∧ stage.Lacks left ∧ last.results = state.results := by
  induction values generalizing state stage with
  | nil => exact ⟨state, stage, rfl, ready, by rwa [List.length_nil, Nat.zero_add] at lacks, rfl⟩
  | cons value rest inductionHypothesis =>
    have more : (value :: rest).length + left = rest.length + left + 1 := Nat.add_right_comm ..
    rw [more] at lacks
    cases stage with
    | reading gathering =>
      have came : Move state (.readReturned party (.ok value)) _ := .secretCame ready.active rfl
      obtain ⟨last, stage, run, there, lacksLeft, results⟩ := inductionHypothesis
        ((ready.note (.leased party value.lease)).moveCycle _) (Stage.lacks_afterRead lacks value)
      refine ⟨last, stage, ?_, there, lacksLeft, ?_⟩
      · rw [List.map_cons, State.run?, came.step?_eq]
        exact run
      · rw [results, State.results_moveCycle, State.results_note]
        exact List.append_nil _
    | staged batch => cases lacks
    | _ => cases lacks

/-- A cycle that has everything writes, and returns. -/
theorem run_closing {batch : Staged} (ready : Ready party delivery (.staged batch) state) :
    ∃ during action last next, closingActions party delivery (.ok ()) = during ++ [action] ∧
      state.run? during = some last ∧ last.step? action = some next ∧
      last.results = state.results ∧ next.results = last.results ++ [(party, .ok ())] ∧
      ∀ step ∈ during, ¬step.BeginsCycleOf party := by
  have returns (middle : State sink) (target : Target) :
      ((middle.commit party target batch).finish party (.ok ())).results =
        middle.results ++ [(party, .ok ())] := by
    rw [State.results_finish, State.results_commit]
  cases delivery with
  | direct target =>
    have commits : Move state (.commit party) _ := .commit ready.active rfl rfl
    exact ⟨[], .commit party, state, _, rfl, rfl, commits.step?_eq, rfl, returns .., nofun⟩
  | locking =>
    have unclaimed := ready.free rfl
    have unheld : state.sinkLock.holder = none := by
      cases held : state.sinkLock.holder with
      | none => rfl
      | some claim => simp [Lock.claims, held] at unclaimed
    have toAsk : state.hasToAsk party .locking = true := by
      simp [State.hasToAsk, unclaimed]
    have granted : (state.sinkLock.ask (.writing party)).isHeldBy (.writing party) = true := by
      simp [Lock.ask, Lock.isHeldBy, unheld]
    have asks : Move state (.askSink party) _ := .askSink ready.active rfl toAsk
    have commits : Move { state with sinkLock := state.sinkLock.ask (.writing party) }
        (.commit party) _ := .commit ready.active rfl granted
    refine ⟨[.askSink party], .commit party, _, _, rfl, State.run?_of_move asks,
      commits.step?_eq, rfl, returns .., fun step member => ?_⟩
    rw [List.mem_singleton.mp member]
    exact id

/-- A cycle whose turn it is gets its token and as many secrets as it is given. -/
theorem run_opening (ready : Ready party delivery .queued state)
    (turn : state.turn.holder = some party) (auth : AuthToken) {values : List Secret} {left : Nat}
    (count : state.settings.secrets.length = values.length + left) :
    ∃ last stage, state.run? (openingActions party auth values) = some last ∧
      Ready party delivery stage last ∧ stage.Lacks left ∧ last.results = state.results := by
  obtain ⟨first, stage, begun, atFirst, lacks, silent⟩ := ready.run_token turn auth
  rw [count] at lacks
  obtain ⟨last, stage, run, atLast, lacksLeft, stillSilent⟩ := atFirst.run_values lacks
  refine ⟨last, stage, ?_, atLast, lacksLeft, stillSilent.trans silent⟩
  rw [openingActions, State.run?_append, begun]
  exact run

/-- A cycle that is answered returns. -/
theorem returns (ready : Ready party delivery .queued state)
    (turn : state.turn.holder = some party) {answers : List Answer} {calls : List Deed}
    {result : Except LoadError Unit}
    (conduct : Conduct state.settings.secrets answers calls result) :
    ∃ during action last next, .enter party :: answers.flatMap (Answer.actions party) ++
        closingActions party delivery result = during ++ [action] ∧
      state.run? during = some last ∧ last.step? action = some next ∧
      last.results = state.results ∧ next.results = last.results ++ [(party, result)] ∧
      ∀ step ∈ during, ¬step.BeginsCycleOf party := by
  cases conduct with
  | refused error =>
    have entered : Move state (.enter party) _ := .enter ready.active rfl turn
    have asked := (ready.moveCycle .authenticating).note (.asked party)
    have fails : Move _ (.tokenReturned party (.error error)) _ := .tokenFailed asked.active rfl
    refine ⟨[.enter party], .tokenReturned party (.error error), _, _, rfl,
      State.run?_of_move entered, fails.step?_eq, ?_, State.results_finish .., ?_⟩
    · rw [State.results_note, State.results_moveCycle]
      exact List.append_nil _
    · intro step member
      rw [List.mem_singleton.mp member]
      exact id
  | brokenOff auth done rest failing values error split same =>
    have count : state.settings.secrets.length = values.length + (rest.length + 1) := by
      rw [split, List.length_append, same, List.length_cons]
    obtain ⟨last, stage, run, atLast, lacks, silent⟩ := ready.run_opening turn auth count
    cases stage with
    | reading gathering =>
      have fails : Move last (.readReturned party (.error error)) _ :=
        .secretFailed atLast.active rfl
      refine ⟨openingActions party auth values, .readReturned party (.error error), last, _, ?_,
        run, fails.step?_eq, silent, State.results_finish .., sameCycle_opening party auth values⟩
      rw [List.flatMap_append, flatMap_goodAnswers]
      simp [openingActions, Answer.actions, closingActions]
    | staged batch => cases lacks
    | _ => cases lacks
  | whole auth values same =>
    obtain ⟨middle, stage, run, atMiddle, lacks, silent⟩ := ready.run_opening turn auth
      (same.trans (Nat.add_zero _).symm)
    cases stage with
    | reading gathering => cases lacks
    | staged batch =>
      obtain ⟨during, action, last, next, closing, further, step, stillSilent, returned,
        sameCycle⟩ := atMiddle.run_closing
      refine ⟨openingActions party auth values ++ during, action, last, next, ?_, ?_, step,
        stillSilent.trans silent, returned, fun step member => ?_⟩
      · rw [flatMap_goodAnswers, closing, ← List.append_assoc]
        rfl
      · rw [State.run?_append, run]
        exact further
      · rcases List.mem_append.mp member with opening | later
        · exact sameCycle_opening party auth values step opening
        · exact sameCycle step later
    | _ => cases lacks

end Ready

section

variable (party : Party)

theorem foldl_answersAfter_actions (known answers : List Answer) :
    (answers.flatMap (Answer.actions party)).foldl (Action.answersAfter party) known =
      known ++ answers := by
  induction answers generalizing known with
  | nil => exact (List.append_nil known).symm
  | cons answer rest inductionHypothesis =>
    have given : (answer.actions party).foldl (Action.answersAfter party) known =
        known ++ [answer] := by
      cases answer with
      | token answer => cases answer <;> exact if_pos rfl
      | secret answer => exact if_pos rfl
    rw [List.flatMap_cons, List.foldl_append, given, inductionHypothesis, List.append_assoc]
    rfl

/-- The actions of a cycle that is given some answers give it these. -/
theorem answersOf_answered {earlier : List Action} (fresh : answersOf party earlier = [])
    (delivery : Delivery) (answers : List Answer) (result : Except LoadError Unit) :
    answersOf party (earlier ++ (.enter party :: answers.flatMap (Answer.actions party) ++
      closingActions party delivery result)) = answers := by
  have closed : (closingActions party delivery result).foldl (Action.answersAfter party) answers =
      answers := by
    cases result with
    | ok _ => cases delivery <;> rfl
    | error error => rfl
  have entered : [Action.enter party].foldl (Action.answersAfter party) [] = [] := rfl
  rw [answersOf] at fresh ⊢
  rw [List.cons_append, ← List.singleton_append, List.foldl_append, List.foldl_append,
    List.foldl_append, fresh, entered, foldl_answersAfter_actions, List.nil_append, closed]

end

/-- Whatever a cycle is answered and whoever is at work meanwhile: if it returns, it has called in
order, up to the first call that failed, and returns what that call returned. If it is answered
every time and nobody keeps it from its sink, it does return. -/
theorem calls_in_order [ConfigSink sink] {settings : LoaderSettings} {sinks : Target → sink}
    {earlier : List Action} {begun : Action} {party : Party} {state : State sink}
    (nonempty : settings.secrets ≠ [])
    (run : (State.start settings sinks).run? (earlier ++ [begun]) = some state)
    (begins : begun.BeginsCycleOf party) :
    (∀ during last action next result, state.run? during = some last →
      (∀ step ∈ during, ¬step.BeginsCycleOf party) → last.step? action = some next →
      next.results = last.results ++ [(party, result)] →
      ∃ calls, Returned settings.secrets party state next
        (answersOf party (earlier ++ [begun] ++ during ++ [action])) calls result) ∧
    ∀ (world : Type) (outside : Outside world) (before : world) (delivery : Delivery),
      Ready party delivery .queued state → state.turn.holder = some party →
      ∃ next answers calls result,
        state.run? (outside.callActions before party delivery settings.secrets).2 = some next ∧
        outside.perform before calls =
          ((outside.callActions before party delivery settings.secrets).1, answers) ∧
        next.results = state.results ++ [(party, result)] ∧
        Returned settings.secrets party state next answers calls result := by
  have built : state.settings = settings := State.settings_of_run run
  refine ⟨fun during last action next result further same step returned =>
    returned_of_run nonempty run begins further same step returned,
    fun world outside before delivery ready turn => ?_⟩
  obtain ⟨answers, calls, result, conduct, performed, actions⟩ :=
    outside.callActions_conduct party delivery before settings.secrets
  obtain ⟨during, action, last, next, split, further, step, silent, returned, same⟩ :=
    ready.returns turn (built.symm ▸ conduct)
  obtain ⟨others, whole⟩ := returned_of_run nonempty run begins further same step returned
  have fresh : answersOf party (earlier ++ [begun]) = [] := by
    rw [answersOf_append_singleton, Action.answersAfter_of_begins begins]
  have heard : answersOf party (earlier ++ [begun] ++ during ++ [action]) = answers := by
    rw [List.append_assoc, ← split]
    exact answersOf_answered party fresh delivery answers result
  rw [heard] at whole
  cases (conduct.unique whole.conduct).1
  refine ⟨next, answers, calls, result, ?_, performed, silent ▸ returned, whole⟩
  rw [actions, split, State.run?_append, further]
  exact State.run?_of_move (.of_step? step)

/-- A source of tokens that has one, and a store that has the first of two secrets. -/
def halfAnswering : Outside Unit where
  askToken _ := ((), .ok ⟨"s", Duration.ofSeconds 60⟩)
  handToken _ _ := ()
  read _ path :=
    ((), if path = "a" then .ok { payload := [("x", .null)], lease := .ofSeconds 40 }
      else .error .rateLimited)

/-- Both secrets arrive while another task queues and leaves again. -/
def interrupted : List Action :=
  [.enter (.host 0), .tokenReturned (.host 0) (.ok ⟨"s", Duration.ofSeconds 60⟩),
    .begin 1 .locking, .tokenTaken (.host 0),
    .readReturned (.host 0) (.ok { payload := [("x", .null)], lease := .ofSeconds 40 }),
    .abandon 1, .readReturned (.host 0) (.ok { payload := [], lease := .ofSeconds 20 })]

theorem calls_in_order_of_half : ∃ began : State Values,
    (State.start twoSecrets fun _ => Values.empty).run? ([] ++ [.begin 0 (.direct (.own 0))]) =
        some began ∧
      (∃ last next, began.run? interrupted = some last ∧
        last.step? (.commit (.host 0)) = some next ∧
        next.callsOf (.host 0) =
          [.askToken, .handToken "s", .read "a", .read "b", .commit] ∧
        next.interval = some (Duration.ofSeconds 15) ∧
        ∃ calls, Returned twoSecrets.secrets (.host 0) began next
          (answersOf (.host 0) ([.begin 0 (.direct (.own 0))] ++ interrupted ++
            [.commit (.host 0)])) calls (.ok ())) ∧
      ∃ next answers calls result,
        began.run? (halfAnswering.callActions () (.host 0) (.direct (.own 0))
          twoSecrets.secrets).2 = some next ∧
        next.callsOf (.host 0) = [.askToken, .handToken "s", .read "a", .read "b"] ∧
        Returned twoSecrets.secrets (.host 0) began next answers calls result := by
  obtain ⟨began, run, queued, turn, last, next, further, step, returned, calls, interval, failed,
      failing, called⟩ : ∃ began : State Values,
      (State.start twoSecrets fun _ => Values.empty).run? ([] ++ [.begin 0 (.direct (.own 0))]) =
          some began ∧
        began.cycles (.host 0) = some ⟨.direct (.own 0), .queued⟩ ∧
        began.turn.holder = some (.host 0) ∧
        ∃ last next, began.run? interrupted = some last ∧
          last.step? (.commit (.host 0)) = some next ∧
          next.results = last.results ++ [(.host 0, .ok ())] ∧
          next.callsOf (.host 0) =
            [.askToken, .handToken "s", .read "a", .read "b", .commit] ∧
          next.interval = some (Duration.ofSeconds 15) ∧
          ∃ failed, began.run? (halfAnswering.callActions () (.host 0) (.direct (.own 0))
              twoSecrets.secrets).2 = some failed ∧
            failed.callsOf (.host 0) = [.askToken, .handToken "s", .read "a", .read "b"] :=
    ⟨_, rfl, rfl, rfl, _, _, rfl, rfl, rfl, by decide, by decide, _, rfl, by decide⟩
  have inOrder := calls_in_order (by decide) run rfl
  have ready : Ready (.host 0) (.direct (.own 0)) .queued began := ⟨queued, rfl, nofun⟩
  have same : ∀ step ∈ interrupted, ¬step.BeginsCycleOf (.host 0) := by
    simp [interrupted, Action.BeginsCycleOf]
  refine ⟨began, run, ⟨last, next, further, step, calls, interval,
    inOrder.1 interrupted last _ next _ further same step returned⟩, ?_⟩
  obtain ⟨other, answers, made, result, alsoFailing, -, -, known⟩ :=
    inOrder.2 Unit halfAnswering () _ ready turn
  cases Option.some.inj (alsoFailing.symm.trans failing)
  exact ⟨failed, answers, made, result, failing, called, known⟩

end SecretRenewal.Loader
