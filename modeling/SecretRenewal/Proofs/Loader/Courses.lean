/-
This file follows one cycle from stage to stage: what it calls on the way, what it is answered,
and what it has gathered by then. However a cycle has got to a stage, its calls are the first of
those that a whole cycle makes, its answers have all been good ones, and what it is going to
write is what it was answered. Every step of a loader either lets one cycle begin, move on or
end, or leaves the cycles alone.
-/
import SecretRenewal.Proofs.Loader.Moves

namespace SecretRenewal.Loader

/-! ### Calls and answers -/

/-- An answer to a call of a cycle. -/
inductive Answer
  | token (answer : Except LoadError AuthToken)
  | secret (answer : Except LoadError Secret)

/-- What a cycle does that others can tell: a call, or the commit. -/
inductive Deed
  | askToken
  | handToken (token : String)
  | read (path : String)
  | commit
  deriving DecidableEq

/-- The answers that the cycle of a party has got after an action, given those it had before. A
cycle that begins has none. -/
def Action.answersAfter (party : Party) (answers : List Answer) : Action → List Answer
  | .begin host _ => if party = .host host then [] else answers
  | .launch => if party = .watcher then [] else answers
  | .tokenReturned other answer => if party = other then answers ++ [.token answer] else answers
  | .readReturned other answer => if party = other then answers ++ [.secret answer] else answers
  | _ => answers

/-- The answers that the latest cycle of a party has got in the course of some actions. -/
def answersOf (party : Party) (actions : List Action) : List Answer :=
  actions.foldl (Action.answersAfter party) []

@[simp] theorem answersOf_append_singleton (party : Party) (actions : List Action)
    (action : Action) :
    answersOf party (actions ++ [action]) = action.answersAfter party (answersOf party actions) :=
  by rw [answersOf, List.foldl_append]; rfl

/-- The calls of a whole cycle. -/
def callsFor (secrets : List SecretDescriptor) (token : String) : List Deed :=
  .askToken :: .handToken token :: secrets.map fun secret => .read secret.path

/-- The answers of a whole cycle in which no call failed. -/
def goodAnswers (auth : AuthToken) (values : List Secret) : List Answer :=
  .token (.ok auth) :: values.map fun value => .secret (.ok value)

/-- Good answers tell the token and the secrets. -/
theorem goodAnswers_inj {auth other : AuthToken} {values others : List Secret}
    (same : goodAnswers auth values = goodAnswers other others) :
    auth = other ∧ values = others := by
  obtain ⟨token, secrets⟩ := List.cons.inj same
  have injective (first second : Secret)
      (equal : Answer.secret (.ok first) = Answer.secret (.ok second)) : first = second :=
    Except.ok.inj (Answer.secret.inj equal)
  exact ⟨Except.ok.inj (Answer.token.inj token), (List.map_inj_right injective).mp secrets⟩

/-- The entries that some secrets come to, one descriptor for each. -/
def entriesFor (secrets : List SecretDescriptor) (values : List Secret) : List (String × Json) :=
  (List.zipWith (fun secret value => secret.configEntries value.payload) secrets values).flatten

/-- What a cycle is going to write that was given this token and these secrets. -/
def Staged.gathered (secrets : List SecretDescriptor) (auth : AuthToken) (values : List Secret) :
    Staged :=
  ⟨entriesFor secrets values, intervalFor auth.lease (values.map Secret.lease)⟩

/-- A further secret adds its entries behind the others. -/
theorem entriesFor_append {secrets : List SecretDescriptor} {values : List Secret}
    (same : secrets.length = values.length) (secret : SecretDescriptor) (value : Secret) :
    entriesFor (secrets ++ [secret]) (values ++ [value]) =
      entriesFor secrets values ++ secret.configEntries value.payload := by
  unfold entriesFor
  rw [List.zipWith_append same, List.flatten_append]
  simp

/-! ### From stage to stage -/

/-- What a cycle calls as soon as it has got to a stage. -/
def Stage.opening : Stage → List Deed
  | .reading gathering => [.read gathering.current.path]
  | _ => []

/-- A cycle moves on from one stage to the next, for an answer if it needs one, and calls. -/
inductive Advance (secrets : List SecretDescriptor) :
    Stage → List Answer → List Deed → Stage → Prop
  | enter : Advance secrets .queued [] [.askToken] .authenticating
  | tokenCame (auth : AuthToken) :
      Advance secrets .authenticating [.token (.ok auth)] [.handToken auth.token]
        (.handingOver auth)
  | tokenTaken (auth : AuthToken) :
      Advance secrets (.handingOver auth) [] (Stage.afterToken secrets auth.lease).opening
        (.afterToken secrets auth.lease)
  | secretCame (gathering : Gathering) (value : Secret) :
      Advance secrets (.reading gathering) [.secret (.ok value)]
        (Stage.afterRead gathering value).opening (.afterRead gathering value)

theorem Advance.after_ne_queued {secrets : List SecretDescriptor} {stage after : Stage}
    {heard : List Answer} {made : List Deed} (advance : Advance secrets stage heard made after) :
    after ≠ .queued := by
  cases advance with
  | enter => exact Stage.noConfusion
  | tokenCame auth => exact Stage.noConfusion
  | tokenTaken auth =>
    unfold Stage.afterToken
    split
    · exact Stage.noConfusion
    · exact Stage.noConfusion
  | secretCame gathering value =>
    unfold Stage.afterRead
    simp only
    split
    · exact Stage.noConfusion
    · exact Stage.noConfusion

/-- A cycle gets to a stage, with these answers and these calls on the way. -/
inductive Course (secrets : List SecretDescriptor) : List Answer → List Deed → Stage → Prop
  | start : Course secrets [] [] .queued
  | step {answers heard : List Answer} {deeds made : List Deed} {stage after : Stage}
      (course : Course secrets answers deeds stage)
      (advance : Advance secrets stage heard made after) :
      Course secrets (answers ++ heard) (deeds ++ made) after

/-- What answers and calls a cycle at a stage has behind it, and what it has gathered. -/
def Stage.Fits (secrets : List SecretDescriptor) (answers : List Answer) (deeds : List Deed) :
    Stage → Prop
  | .queued => answers = [] ∧ deeds = []
  | .authenticating => answers = [] ∧ deeds = [.askToken]
  | .handingOver auth => answers = goodAnswers auth [] ∧ deeds = callsFor [] auth.token
  | .reading gathering => ∃ auth done values,
      secrets = done ++ gathering.current :: gathering.remaining ∧
      done.length = values.length ∧
      answers = goodAnswers auth values ∧
      deeds = callsFor (done ++ [gathering.current]) auth.token ∧
      gathering.tokenLease = auth.lease ∧
      gathering.entries = entriesFor done values ∧
      gathering.leases = values.map Secret.lease
  | .staged batch => ∃ auth values,
      secrets.length = values.length ∧
      answers = goodAnswers auth values ∧
      deeds = callsFor secrets auth.token ∧
      batch = Staged.gathered secrets auth values

theorem Stage.fits_afterToken (secrets : List SecretDescriptor) (auth : AuthToken) :
    (Stage.afterToken secrets auth.lease).Fits secrets (goodAnswers auth [])
      (callsFor [] auth.token ++ (Stage.afterToken secrets auth.lease).opening) := by
  cases secrets with
  | nil => exact ⟨auth, [], rfl, rfl, rfl, rfl⟩
  | cons secret rest => exact ⟨auth, [], [], rfl, rfl, rfl, rfl, rfl, rfl, rfl⟩

theorem Stage.fits_afterRead {secrets : List SecretDescriptor} {answers : List Answer}
    {deeds : List Deed} {gathering : Gathering}
    (fits : (Stage.reading gathering).Fits secrets answers deeds) (value : Secret) :
    (Stage.afterRead gathering value).Fits secrets (answers ++ [.secret (.ok value)])
      (deeds ++ (Stage.afterRead gathering value).opening) := by
  obtain ⟨auth, done, values, split, same, rfl, rfl, tokenLease, entries, leases⟩ := fits
  have more : (done ++ [gathering.current]).length = (values ++ [value]).length := by
    simp [same]
  have answered : goodAnswers auth values ++ [.secret (.ok value)] =
      goodAnswers auth (values ++ [value]) := by
    simp [goodAnswers]
  have gathered : gathering.entries ++ gathering.current.configEntries value.payload =
      entriesFor (done ++ [gathering.current]) (values ++ [value]) := by
    rw [entriesFor_append same, entries]
  have leased : gathering.leases ++ [value.lease] = (values ++ [value]).map Secret.lease := by
    simp [leases]
  rw [answered]
  unfold Stage.afterRead
  cases last : gathering.remaining with
  | nil =>
    have all : secrets = done ++ [gathering.current] := by rw [split, last]
    refine ⟨auth, values ++ [value], ?_, rfl, ?_, ?_⟩
    · rw [all, more]
    · rw [all]
      exact List.append_nil _
    · simp only [Staged.gathered, all, gathered, leased, tokenLease]
  | cons next rest =>
    refine ⟨auth, done ++ [gathering.current], values ++ [value], ?_, more, rfl, ?_, tokenLease,
      gathered, leased⟩
    · rw [split, last, List.append_assoc]
      rfl
    · simp [Stage.opening, callsFor]

/-- What a cycle was told and what it did fit its stage. -/
theorem Course.fits {secrets : List SecretDescriptor} {answers : List Answer}
    {deeds : List Deed} {stage : Stage} (course : Course secrets answers deeds stage) :
    stage.Fits secrets answers deeds := by
  induction course with
  | start => exact ⟨rfl, rfl⟩
  | step course advance inductionHypothesis =>
    cases advance with
    | enter =>
      obtain ⟨rfl, rfl⟩ := inductionHypothesis
      exact ⟨rfl, rfl⟩
    | tokenCame auth =>
      obtain ⟨rfl, rfl⟩ := inductionHypothesis
      exact ⟨rfl, rfl⟩
    | tokenTaken auth =>
      obtain ⟨rfl, rfl⟩ := inductionHypothesis
      rw [List.append_nil]
      exact Stage.fits_afterToken secrets auth
    | secretCame gathering value => exact Stage.fits_afterRead inductionHypothesis value

/-- The calls of a cycle are the first of those of a whole one. -/
theorem Course.calls_prefix {secrets : List SecretDescriptor} {answers : List Answer}
    {deeds : List Deed} {stage : Stage} (course : Course secrets answers deeds stage) :
    ∃ token, deeds <+: callsFor secrets token := by
  have fits := course.fits
  cases stage with
  | queued => exact ⟨"", fits.2 ▸ List.nil_prefix⟩
  | authenticating => exact ⟨"", fits.2 ▸ ⟨_, rfl⟩⟩
  | handingOver auth => exact ⟨auth.token, fits.2 ▸ ⟨_, rfl⟩⟩
  | reading gathering =>
    obtain ⟨auth, done, values, split, -, -, calls, -⟩ := fits
    refine ⟨auth.token, ?_⟩
    rw [calls, split]
    refine ⟨gathering.remaining.map fun secret => .read secret.path, ?_⟩
    simp [callsFor]
  | staged batch =>
    obtain ⟨auth, values, -, -, calls, -⟩ := fits
    exact ⟨auth.token, calls ▸ List.prefix_rfl⟩

/-- A cycle that is no longer queued has called. -/
theorem Course.calls_ne_nil {secrets : List SecretDescriptor} {answers : List Answer}
    {deeds : List Deed} {stage : Stage} (course : Course secrets answers deeds stage)
    (called : stage ≠ .queued) : deeds ≠ [] := by
  have fits := course.fits
  cases stage with
  | queued => exact absurd rfl called
  | authenticating => exact fits.2 ▸ List.cons_ne_nil _ _
  | handingOver auth => exact fits.2 ▸ List.cons_ne_nil _ _
  | reading gathering =>
    obtain ⟨auth, done, values, -, -, -, calls, -⟩ := fits
    exact calls ▸ List.cons_ne_nil _ _
  | staged batch =>
    obtain ⟨auth, values, -, -, calls, -⟩ := fits
    exact calls ▸ List.cons_ne_nil _ _

/-! ### The log of calls -/

def Event.deed? : Event → Option (Party × Deed)
  | .asked party => some (party, .askToken)
  | .handed party token => some (party, .handToken token)
  | .read party path _ => some (party, .read path)
  | .committed party _ _ => some (party, .commit)
  | _ => none

namespace State

variable {sink : Type}

/-- The calls and commits of all cycles so far, the oldest first. -/
def deeds (state : State sink) : List (Party × Deed) :=
  extract (fun entry => entry.2.deed?) state.history

theorem deeds_note (state : State sink) (event : Event) :
    (state.note event).deeds = state.deeds ++ event.deed?.toList :=
  extract_cons (state.now, event) state.history

theorem deeds_setWatcher (state : State sink) (watcher : Watcher) :
    (state.setWatcher watcher).deeds = state.deeds :=
  extract_setWatcher (fun _ _ => rfl) state watcher

/-- A cycle that moves on makes the calls that its new stage opens with. -/
theorem deeds_moveCycle (state : State sink) (party : Party) (cycle : Cycle) (stage : Stage) :
    (state.moveCycle party cycle stage).deeds =
      state.deeds ++ stage.opening.map (party, ·) := by
  unfold deeds
  rw [extract_moveCycle]
  cases stage <;> rfl

theorem deeds_write [ConfigSink sink] (state : State sink) (target : Target)
    (entries : List (String × Json)) : (state.write target entries).deeds = state.deeds :=
  extract_write (fun _ _ _ _ => rfl) state target entries

/-- A commit is a deed of its party. -/
theorem deeds_commit [ConfigSink sink] (state : State sink) (party : Party) (target : Target)
    (batch : Staged) :
    (state.commit party target batch).deeds = state.deeds ++ [(party, .commit)] := by
  unfold commit
  rw [deeds_note]
  exact congrArg (· ++ [(party, Deed.commit)]) (deeds_write state target batch.entries)

theorem deeds_finish (state : State sink) (party : Party) (result : Except LoadError Unit) :
    (state.finish party result).deeds = state.deeds :=
  (extract_finish (fun _ _ => rfl) state party result).trans (List.append_nil _)

theorem deeds_breakDown (state : State sink) (party : Party) (reason : String) :
    (state.breakDown party reason).deeds = state.deeds :=
  (extract_breakDown state party reason).trans (List.append_nil _)

end State

/-! ### Steps of a loader as steps of its cycles -/

/-- What a step does to the cycles under way. It leaves them alone, or it lets one of them begin,
move on, or end, and the answers and calls are those of that one. -/
inductive CycleStep {sink : Type} (state : State sink) (action : Action) (next : State sink) :
    Prop
  | apart (cycles : next.cycles = state.cycles) (turn : next.turn = state.turn)
      (deeds : next.deeds = state.deeds)
      (unanswered : ∀ other answers, action.answersAfter other answers = answers)
  | begun (party : Party) (delivery : Delivery) (idle : state.cycles party = none)
      (cycles : next.cycles = Function.update state.cycles party (some { delivery }))
      (turn : next.turn = state.turn.ask party) (deeds : next.deeds = state.deeds)
      (fresh : ∀ answers, action.answersAfter party answers = [])
      (others : ∀ other ≠ party, ∀ answers, action.answersAfter other answers = answers)
  | moved (party : Party) (cycle : Cycle) (after : Stage) (heard : List Answer)
      (made : List Deed) (running : state.cycles party = some cycle)
      (first : cycle.stage = .queued → state.turn.holder = some party)
      (advance : Advance state.settings.secrets cycle.stage heard made after)
      (cycles : next.cycles =
        Function.update state.cycles party (some { cycle with stage := after }))
      (turn : next.turn = state.turn) (deeds : next.deeds = state.deeds ++ made.map (party, ·))
      (answered : ∀ answers, action.answersAfter party answers = answers ++ heard)
      (others : ∀ other ≠ party, ∀ answers, action.answersAfter other answers = answers)
      (actor : action.party? = some party)
  | ended (party : Party) (cycle : Cycle) (made : List Deed)
      (running : state.cycles party = some cycle)
      (closing : made = [] ∨ made = [.commit] ∧ ∃ batch, cycle.stage = .staged batch)
      (cycles : next.cycles = Function.update state.cycles party none)
      (turn : next.turn = state.turn.leave party)
      (deeds : next.deeds = state.deeds ++ made.map (party, ·))
      (others : ∀ other ≠ party, ∀ answers, action.answersAfter other answers = answers)
      (actor : action.party? = some party)

namespace CycleStep

variable {sink : Type} {state next other : State sink} {action : Action}

/-- It makes no difference to the cycles what else a step does. -/
theorem congr (step : CycleStep state action next) (cycles : other.cycles = next.cycles)
    (turn : other.turn = next.turn) (deeds : other.deeds = next.deeds) :
    CycleStep state action other := by
  cases step with
  | apart cycles' turn' deeds' unanswered =>
    exact .apart (cycles.trans cycles') (turn.trans turn') (deeds.trans deeds') unanswered
  | begun party delivery idle cycles' turn' deeds' fresh others =>
    exact .begun party delivery idle (cycles.trans cycles') (turn.trans turn')
      (deeds.trans deeds') fresh others
  | moved party cycle after heard made running first advance cycles' turn' deeds' answered others
      actor =>
    exact .moved party cycle after heard made running first advance (cycles.trans cycles')
      (turn.trans turn') (deeds.trans deeds') answered others actor
  | ended party cycle made running closing cycles' turn' deeds' others actor =>
    exact .ended party cycle made running closing (cycles.trans cycles') (turn.trans turn')
      (deeds.trans deeds') others actor

/-- What is noted besides calls makes no difference either. -/
theorem note (step : CycleStep state action next) {event : Event}
    (silent : event.deed? = none) : CycleStep state action (next.note event) :=
  step.congr rfl rfl (by rw [State.deeds_note, silent]; exact List.append_nil _)

theorem setWatcher (step : CycleStep state action next) (watcher : Watcher) :
    CycleStep state action (next.setWatcher watcher) :=
  step.congr (by rw [State.setWatcher_eq]) (by rw [State.setWatcher_eq])
    (State.deeds_setWatcher next watcher)

/-- A step that no cycle takes part in. -/
theorem refl (unanswered : ∀ other answers, action.answersAfter other answers = answers) :
    CycleStep state action state :=
  .apart rfl rfl rfl unanswered

theorem of_finish {party : Party} {cycle : Cycle} (running : state.cycles party = some cycle)
    (result : Except LoadError Unit)
    (others : ∀ other ≠ party, ∀ answers, action.answersAfter other answers = answers)
    (actor : action.party? = some party) :
    CycleStep state action (state.finish party result) := by
  refine .ended party cycle [] running (.inl rfl) ?_ ?_ ?_ others actor
  · rw [State.finish_eq]
  · rw [State.finish_eq]
  · exact (State.deeds_finish ..).trans (List.append_nil _).symm

theorem of_breakDown {party : Party} {cycle : Cycle} (running : state.cycles party = some cycle)
    (reason : String)
    (others : ∀ other ≠ party, ∀ answers, action.answersAfter other answers = answers)
    (actor : action.party? = some party) :
    CycleStep state action (state.breakDown party reason) := by
  refine .ended party cycle [] running (.inl rfl) ?_ ?_ ?_ others actor
  · rw [State.breakDown_eq]
  · rw [State.breakDown_eq]
  · exact (State.deeds_breakDown ..).trans (List.append_nil _).symm

/-- A cycle may be given up at any stage. -/
theorem of_endCycle {party : Party} {cycle : Cycle} (running : state.cycles party = some cycle)
    (others : ∀ other ≠ party, ∀ answers, action.answersAfter other answers = answers)
    (actor : action.party? = some party) : CycleStep state action (state.endCycle party) := by
  rw [State.endCycle_eq]
  exact .ended party cycle [] running (.inl rfl) rfl rfl (List.append_nil _).symm others actor

/-- A cycle commits and ends. -/
theorem of_commit [ConfigSink sink] {party : Party} {cycle : Cycle} {batch : Staged}
    (running : state.cycles party = some cycle) (stage : cycle.stage = .staged batch)
    (result : Except LoadError Unit)
    (others : ∀ other ≠ party, ∀ answers, action.answersAfter other answers = answers)
    (actor : action.party? = some party) :
    CycleStep state action
      ((state.commit party cycle.delivery.target batch).finish party result) := by
  refine .ended party cycle [.commit] running (.inr ⟨rfl, batch, stage⟩) ?_ ?_ ?_ others actor
  · rw [State.finish_eq]
    rfl
  · rw [State.finish_eq]
    rfl
  · exact (State.deeds_finish ..).trans (State.deeds_commit ..)

theorem of_begin {host : Nat} (idle : state.cycles (.host host) = none) (delivery : Delivery) :
    CycleStep state (.begin host delivery) (state.beginCycle (.host host) delivery) := by
  rw [State.beginCycle_eq]
  refine .begun (.host host) delivery idle rfl rfl rfl (fun _ => if_pos rfl) ?_
  exact fun other different answers => if_neg different

theorem of_launch (idle : state.cycles .watcher = none) :
    CycleStep state .launch (state.beginCycle .watcher .locking) := by
  rw [State.beginCycle_eq]
  refine .begun .watcher .locking idle rfl rfl rfl (fun _ => rfl) ?_
  exact fun other different answers => if_neg different

section

variable {party : Party} {cycle : Cycle}

theorem of_enter (running : state.cycles party = some cycle) (stage : cycle.stage = .queued)
    (turn : state.turn.holder = some party) :
    CycleStep state (.enter party)
      ((state.moveCycle party cycle .authenticating).note (.asked party)) := by
  refine .moved party cycle .authenticating [] [.askToken] running
    (fun _ => turn) (stage ▸ .enter) ?_ ?_ ?_ (fun _ => (List.append_nil _).symm)
    (fun _ _ _ => rfl) rfl
  · rw [State.moveCycle_eq]
    rfl
  · rw [State.moveCycle_eq]
    rfl
  · rw [State.deeds_note, State.deeds_moveCycle]
    exact congrArg (· ++ _) (List.append_nil _)

theorem of_tokenCame (running : state.cycles party = some cycle)
    (stage : cycle.stage = .authenticating) (auth : AuthToken) :
    CycleStep state (.tokenReturned party (.ok auth))
      (((state.moveCycle party cycle (.handingOver auth)).note
        (.leased party auth.lease)).note (.handed party auth.token)) := by
  refine .moved party cycle (.handingOver auth) [.token (.ok auth)] [.handToken auth.token]
    running (by simp [stage]) (stage ▸ .tokenCame auth) ?_ ?_ ?_
    (fun _ => if_pos rfl) (fun _ different _ => if_neg different) rfl
  · rw [State.moveCycle_eq]
    rfl
  · rw [State.moveCycle_eq]
    rfl
  · rw [State.deeds_note, State.deeds_note, State.deeds_moveCycle]
    simp [Stage.opening, Event.deed?]

theorem of_tokenTaken {auth : AuthToken} (running : state.cycles party = some cycle)
    (stage : cycle.stage = .handingOver auth) :
    CycleStep state (.tokenTaken party)
      ({ state with storeToken := some auth.token }.moveCycle party cycle
        (.afterToken state.settings.secrets auth.lease)) := by
  refine .moved party cycle _ [] _ running (by simp [stage])
    (by rw [stage]; exact Advance.tokenTaken auth) ?_ ?_ ?_
    (fun _ => (List.append_nil _).symm) (fun _ _ _ => rfl) rfl
  · rw [State.moveCycle_eq]
  · rw [State.moveCycle_eq]
  · rw [State.deeds_moveCycle]
    rfl

theorem of_secretCame {gathering : Gathering} (running : state.cycles party = some cycle)
    (stage : cycle.stage = .reading gathering) (secret : Secret) :
    CycleStep state (.readReturned party (.ok secret))
      ((state.note (.leased party secret.lease)).moveCycle party cycle
        (.afterRead gathering secret)) := by
  refine .moved party cycle _ [.secret (.ok secret)] _ running
    (by simp [stage]) (by rw [stage]; exact Advance.secretCame gathering secret) ?_ ?_ ?_
    (fun _ => if_pos rfl) (fun _ different _ => if_neg different) rfl
  · rw [State.moveCycle_eq]
    rfl
  · rw [State.moveCycle_eq]
    rfl
  · rw [State.deeds_moveCycle, State.deeds_note]
    exact congrArg (· ++ _) (List.append_nil _)

/-- A write that breaks down makes no commit. -/
theorem of_writeBroke [ConfigSink sink] (running : state.cycles party = some cycle)
    (target : Target) (entries : List (String × Json)) (written : Nat) (reason : String) :
    CycleStep state (.writeBroke party written reason)
      ((state.write target entries).breakDown party reason) := by
  have broken : CycleStep state (.writeBroke party written reason)
      (state.breakDown party reason) :=
    .of_breakDown running reason (fun _ _ _ => rfl) rfl
  refine broken.congr ?_ ?_ ?_
  · rw [State.breakDown_eq, State.breakDown_eq]
    rfl
  · rw [State.breakDown_eq, State.breakDown_eq]
    rfl
  · rw [State.deeds_breakDown, State.deeds_breakDown, State.deeds_write]

end

/-- The step of a loader for each of its moves. -/
theorem of_move [ConfigSink sink] (move : Move state action next) :
    CycleStep state action next := by
  cases move with
  | begin idle guarded => exact .of_begin idle _
  | enter active stage turn => exact .of_enter (State.cycles_of_active active) stage turn
  | tokenCame active stage => exact .of_tokenCame (State.cycles_of_active active) stage _
  | tokenFailed active stage =>
    exact .of_finish (State.cycles_of_active active) _ (fun _ different _ => if_neg different) rfl
  | tokenTaken active stage => exact .of_tokenTaken (State.cycles_of_active active) stage
  | secretCame active stage => exact .of_secretCame (State.cycles_of_active active) stage _
  | secretFailed active stage =>
    exact .of_finish (State.cycles_of_active active) _ (fun _ different _ => if_neg different) rfl
  | callBroke active calling =>
    exact .of_breakDown (State.cycles_of_active active) _ (fun _ _ _ => rfl) rfl
  | askSink active stage toAsk => exact (refl fun _ _ => rfl).congr rfl rfl rfl
  | commit active stage free =>
    exact .of_commit (State.cycles_of_active active) stage _ (fun _ _ _ => rfl) rfl
  | writeBroke active stage free short => exact .of_writeBroke (State.cycles_of_active active) ..
  | abandon running => exact (of_endCycle running (fun _ _ _ => rfl) rfl).note rfl
  | arm active phase => exact (refl fun _ _ => rfl).setWatcher _
  | rearm active phase known unheard => exact (refl fun _ _ => rfl).setWatcher _
  | due active phase heard reached => exact ((refl fun _ _ => rfl).setWatcher _).note rfl
  | resume active phase reached => exact ((refl fun _ _ => rfl).setWatcher _).note rfl
  | launch active phase idle => exact .of_launch idle
  | requestStop present => exact (refl fun _ _ => rfl).setWatcher _
  | quitIdle present asked running idle => exact (refl fun _ _ => rfl).setWatcher _
  | quitCycle present asked running inCycle =>
    exact ((of_endCycle inCycle (fun _ _ _ => rfl) rfl).note rfl).setWatcher _
  | lockSink fresh => exact (refl fun _ _ => rfl).congr rfl rfl rfl
  | unlockSink claimed unused => exact (refl fun _ _ => rfl).congr rfl rfl rfl
  | beginWait present kept => exact (refl fun _ _ => rfl).setWatcher _
  | waitLate present late => exact (refl fun _ _ => rfl).note rfl
  | finishWait present ended taken => exact ((refl fun _ _ => rfl).setWatcher _).note rfl
  | dropWait present taken => exact (refl fun _ _ => rfl).setWatcher _
  | advance later quiet timely => exact (refl fun _ _ => rfl).congr rfl rfl rfl

end CycleStep

end SecretRenewal.Loader
