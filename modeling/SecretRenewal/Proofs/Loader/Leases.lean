/-
This file follows the leases of a cycle. A cycle asks for its token, is granted a lease with the
token and one with every secret, and commits; what it commits is the interval for exactly these
leases. Since cycles take turns, the leases granted since the last call for a token are those of
the cycle that is inside. The interval is at most three quarters of each of them.
-/
import SecretRenewal.Proofs.Loader.Commits
import SecretRenewal.Proofs.Lease.Aggregation
import Mathlib.Data.List.Induction

namespace SecretRenewal

namespace Loader

/-! ### Intervals -/

/-- The interval is at most three quarters of each lease. -/
theorem nanos_intervalFor_le {tokenLease lease : Duration} {leases : List Duration}
    (member : lease ∈ tokenLease :: leases) :
    (intervalFor tokenLease leases).nanos ≤ lease.nanos * 3 / 4 := by
  unfold intervalFor Lease.refreshInterval
  rw [Lease.nanos_threeQuarters, Duration.nanos_min]
  refine Nat.div_le_div_right (Nat.mul_le_mul_right 3 ?_)
  rcases List.mem_cons.mp member with rfl | secret
  · exact Nat.min_le_left ..
  · refine Nat.le_trans (Nat.min_le_right ..) ?_
    cases isShortest : Lease.shortest? leases with
    | none => exact Nat.zero_le _
    | some shortest => exact (Lease.shortest?_eq_some_iff.mp isShortest).2 lease secret

/-! ### Leases in the history -/

/-- What a cycle does about leases, and when. -/
inductive Mark
  /-- It asks for a token. -/
  | asked (time : Nat) (party : Party)
  /-- It is granted a lease. -/
  | granted (time : Nat) (lease : Duration)
  /-- It commits. -/
  | committed (commit : Commit)

def Mark.time : Mark → Nat
  | asked time _ | granted time _ => time
  | committed commit => commit.time

def Mark.commit? : Mark → Option Commit
  | committed commit => some commit
  | _ => none

def markOf? : Nat × Event → Option Mark
  | (time, .asked party) => some (.asked time party)
  | (time, .leased _ lease) => some (.granted time lease)
  | (time, .committed party target batch) => some (.committed ⟨time, party, target, batch⟩)
  | _ => none

/-- The leases granted since a cycle last asked for a token, and when each was. -/
def openGrants (marks : List Mark) : List (Nat × Duration) :=
  marks.foldl (fun grants mark =>
    match mark with
    | .asked _ _ => []
    | .granted time lease => grants ++ [(time, lease)]
    | .committed _ => grants) []

/-- Asking for a token begins anew. -/
theorem openGrants_asked (marks : List Mark) (time : Nat) (party : Party) :
    openGrants (marks ++ [.asked time party]) = [] := by
  unfold openGrants
  rw [List.foldl_append]
  rfl

/-- A lease counts from when it was granted. -/
theorem openGrants_granted (marks : List Mark) (time : Nat) (lease : Duration) :
    openGrants (marks ++ [.granted time lease]) = openGrants marks ++ [(time, lease)] := by
  unfold openGrants
  rw [List.foldl_append]
  rfl

theorem openGrants_committed (marks : List Mark) (commit : Commit) :
    openGrants (marks ++ [.committed commit]) = openGrants marks := by
  unfold openGrants
  rw [List.foldl_append]
  rfl

/-- Every open grant is marked. -/
theorem mem_of_openGrants (marks : List Mark) :
    ∀ grant ∈ openGrants marks, .granted grant.1 grant.2 ∈ marks := by
  induction marks using List.reverseRecOn with
  | nil => exact nofun
  | append_singleton earlier last inductionHypothesis =>
    intro grant member
    cases last with
    | asked time party =>
      rw [openGrants_asked] at member
      cases member
    | granted time lease =>
      rw [openGrants_granted] at member
      rcases List.mem_append.mp member with old | new
      · exact List.mem_append_left _ (inductionHypothesis grant old)
      · rw [List.mem_singleton.mp new]
        exact List.mem_append_right _ (List.mem_singleton_self _)
    | committed commit =>
      rw [openGrants_committed] at member
      exact List.mem_append_left _ (inductionHypothesis grant member)

variable {sink : Type}

namespace State

variable (state : State sink)

/-- What cycles have done about leases so far, the oldest first. -/
def marks : List Mark := extract markOf? state.history

/-- Of what happens, leases and commits leave a mark. -/
theorem marks_note (event : Event) :
    (state.note event).marks = state.marks ++ (markOf? (state.now, event)).toList :=
  extract_cons (state.now, event) state.history

theorem marks_setWatcher (watcher : Watcher) : (state.setWatcher watcher).marks = state.marks :=
  extract_setWatcher (fun _ _ => rfl) state watcher

theorem marks_moveCycle (party : Party) (cycle : Cycle) (stage : Stage) :
    (state.moveCycle party cycle stage).marks = state.marks := by
  unfold marks
  rw [extract_moveCycle]
  cases stage <;> exact List.append_nil _

theorem marks_endCycle (party : Party) : (state.endCycle party).marks = state.marks := by
  rw [endCycle_eq]
  rfl

theorem marks_finish (party : Party) (result : Except LoadError Unit) :
    (state.finish party result).marks = state.marks :=
  (extract_finish (fun _ _ => rfl) state party result).trans (List.append_nil _)

theorem marks_breakDown (party : Party) (reason : String) :
    (state.breakDown party reason).marks = state.marks :=
  (extract_breakDown state party reason).trans (List.append_nil _)

theorem marks_write [ConfigSink sink] (target : Target) (entries : List (String × Json)) :
    (state.write target entries).marks = state.marks :=
  extract_write (fun _ _ _ _ => rfl) state target entries

theorem marks_commit [ConfigSink sink] (party : Party) (target : Target) (batch : Staged) :
    (state.commit party target batch).marks =
      state.marks ++ [.committed ⟨state.now, party, target, batch⟩] := by
  unfold commit
  rw [marks_note]
  exact congrArg (· ++ _) (marks_write state target batch.entries)

/-- The commits are among the marks. -/
theorem commitLog_eq_filterMap : state.commitLog = state.marks.filterMap Mark.commit? := by
  have same : commitOf? = fun entry => (markOf? entry).bind Mark.commit? := by
    funext entry
    obtain ⟨time, event⟩ := entry
    cases event <;> rfl
  unfold commitLog marks extract
  rw [same, List.filterMap_reverse, List.filterMap_filterMap]

end State

/-! ### Steps -/

/-- Whether some leases are those that a cycle at a stage has been granted. -/
def Stage.GrantedBy (grants : List (Nat × Duration)) : Stage → Prop
  | .queued => True
  | .authenticating => grants = []
  | .handingOver auth => grants.map Prod.snd = [auth.lease]
  | .reading gathering => grants.map Prod.snd = gathering.tokenLease :: gathering.leases
  | .staged batch => ∃ tokenLease leases, grants.map Prod.snd = tokenLease :: leases ∧
      batch.interval = intervalFor tokenLease leases

theorem Stage.grantedBy_afterToken {grants : List (Nat × Duration)}
    {secrets : List SecretDescriptor} {tokenLease : Duration}
    (granted : grants.map Prod.snd = [tokenLease]) :
    (Stage.afterToken secrets tokenLease).GrantedBy grants := by
  cases secrets with
  | nil => exact ⟨tokenLease, [], granted, rfl⟩
  | cons current rest => exact granted

/-- The lease of a secret is granted when its read returns. -/
theorem Stage.grantedBy_afterRead {grants : List (Nat × Duration)} {gathering : Gathering}
    (granted : (Stage.reading gathering).GrantedBy grants) (time : Nat) (value : Secret) :
    (Stage.afterRead gathering value).GrantedBy (grants ++ [(time, value.lease)]) := by
  have more : (grants ++ [(time, value.lease)]).map Prod.snd =
      gathering.tokenLease :: (gathering.leases ++ [value.lease]) := by
    rw [List.map_append, granted]
    rfl
  unfold Stage.afterRead
  cases gathering.remaining with
  | nil => exact ⟨_, _, more, rfl⟩
  | cons current rest => exact more

/-- What a step does about leases: a cycle comes inside and asks for its token, or goes on and may
be granted a lease, or commits; other steps leave the cycles that are inside alone or end them. -/
inductive LeaseStep (state next : State sink) : Prop
  | apart (marks : next.marks = state.marks)
      (cycles : ∀ party cycle, next.cycles party = some cycle →
        cycle.stage = .queued ∨ state.cycles party = some cycle)
  | enters (party : Party) (cycle : Cycle) (held : state.turn.holder = some party)
      (marks : next.marks = state.marks ++ [.asked state.now party])
      (cycles : next.cycles =
        Function.update state.cycles party (some { cycle with stage := .authenticating }))
  | goesOn (party : Party) (cycle : Cycle) (after : Stage) (lease : Option Duration)
      (running : state.cycles party = some cycle) (called : cycle.stage ≠ .queued)
      (marks : next.marks = state.marks ++ lease.toList.map (.granted state.now))
      (cycles : next.cycles =
        Function.update state.cycles party (some { cycle with stage := after }))
      (fits : ∀ grants, cycle.stage.GrantedBy grants →
        after.GrantedBy (grants ++ lease.toList.map (state.now, ·)))
  | commits (party : Party) (cycle : Cycle) (batch : Staged)
      (running : state.cycles party = some cycle) (stage : cycle.stage = .staged batch)
      (marks : next.marks =
        state.marks ++ [.committed ⟨state.now, party, cycle.delivery.target, batch⟩])
      (cycles : next.cycles = Function.update state.cycles party none)

namespace LeaseStep

variable {state next other : State sink}

theorem congr (step : LeaseStep state next) (marks : other.marks = next.marks)
    (cycles : other.cycles = next.cycles) : LeaseStep state other := by
  cases step with
  | apart marks' cycles' => exact .apart (marks.trans marks') (cycles ▸ cycles')
  | enters party cycle held marks' cycles' =>
    exact .enters party cycle held (marks.trans marks') (cycles.trans cycles')
  | goesOn party cycle after lease running called marks' cycles' fits =>
    exact .goesOn party cycle after lease running called (marks.trans marks')
      (cycles.trans cycles') fits
  | commits party cycle batch running stage marks' cycles' =>
    exact .commits party cycle batch running stage (marks.trans marks') (cycles.trans cycles')

theorem refl (state : State sink) : LeaseStep state state :=
  .apart rfl fun _ _ running => .inr running

theorem note (step : LeaseStep state next) {event : Event}
    (silent : markOf? (next.now, event) = none) : LeaseStep state (next.note event) := by
  refine step.congr ?_ rfl
  rw [State.marks_note, silent]
  exact List.append_nil _

theorem setWatcher (step : LeaseStep state next) (watcher : Watcher) :
    LeaseStep state (next.setWatcher watcher) :=
  step.congr (State.marks_setWatcher ..) (State.cycles_setWatcher ..)

theorem beginCycle (state : State sink) (party : Party) (delivery : Delivery) :
    LeaseStep state (state.beginCycle party delivery) := by
  rw [State.beginCycle_eq]
  refine .apart rfl fun other cycle running => ?_
  by_cases same : other = party
  · subst same
    cases (Function.update_self other (some { delivery }) state.cycles).symm.trans running
    exact .inl rfl
  · exact .inr ((Function.update_of_ne same ..).symm.trans running)

/-- A cycle that ends leaves the others as they are. -/
theorem of_ended (party : Party) (marks : next.marks = state.marks)
    (cycles : next.cycles = Function.update state.cycles party none) : LeaseStep state next := by
  refine .apart marks fun other cycle running => ?_
  rw [cycles] at running
  by_cases same : other = party
  · subst same
    rw [Function.update_self] at running
    cases running
  · exact .inr ((Function.update_of_ne same ..).symm.trans running)

/-- A cycle that ends grants nothing and commits nothing. -/
theorem finish (state : State sink) (party : Party) (result : Except LoadError Unit) :
    LeaseStep state (state.finish party result) := by
  refine .of_ended party (State.marks_finish ..) ?_
  rw [State.finish_eq]

theorem breakDown (state : State sink) (party : Party) (reason : String) :
    LeaseStep state (state.breakDown party reason) := by
  refine .of_ended party (State.marks_breakDown ..) ?_
  rw [State.breakDown_eq]

theorem endCycle (state : State sink) (party : Party) :
    LeaseStep state (state.endCycle party) := by
  refine .of_ended party (State.marks_endCycle ..) ?_
  rw [State.endCycle_eq]

/-- The step about leases for each move of a loader. -/
theorem of_move [ConfigSink sink] {action : Action} (move : Move state action next) :
    LeaseStep state next := by
  cases move with
  | begin idle guarded => exact .beginCycle ..
  | @enter party cycle active stage turn =>
    refine .enters party cycle turn ?_ ?_
    · rw [State.marks_note, State.marks_moveCycle, State.moveCycle_eq]
      rfl
    · rw [State.moveCycle_eq]
      rfl
  | @tokenCame party cycle auth active stage =>
    refine .goesOn party cycle (.handingOver auth) (some auth.lease)
      (State.cycles_of_active active) (by rw [stage]; nofun) ?_ ?_ fun grants granted => ?_
    · rw [State.marks_note, State.marks_note, State.marks_moveCycle, State.moveCycle_eq]
      exact List.append_nil _
    · rw [State.moveCycle_eq]
      rfl
    · rw [stage] at granted
      cases granted
      rfl
  | tokenFailed active stage => exact .finish ..
  | @tokenTaken party cycle auth active stage =>
    refine .goesOn party cycle (.afterToken state.settings.secrets auth.lease) none
      (State.cycles_of_active active) (by rw [stage]; nofun) ?_ ?_ fun grants granted => ?_
    · exact (State.marks_moveCycle ..).trans (List.append_nil _).symm
    · rw [State.moveCycle_eq]
    · rw [stage] at granted
      exact (List.append_nil grants).symm ▸ Stage.grantedBy_afterToken granted
  | @secretCame party cycle gathering secret active stage =>
    refine .goesOn party cycle (.afterRead gathering secret) (some secret.lease)
      (State.cycles_of_active active) (by rw [stage]; nofun) ?_ ?_ fun grants granted => ?_
    · exact (State.marks_moveCycle ..).trans (State.marks_note ..)
    · rw [State.moveCycle_eq]
      rfl
    · rw [stage] at granted
      exact Stage.grantedBy_afterRead granted state.now secret
  | secretFailed active stage => exact .finish ..
  | callBroke active calling => exact .breakDown ..
  | askSink active stage toAsk => exact (refl state).congr rfl rfl
  | @commit party cycle batch active stage free =>
    refine .commits party cycle batch (State.cycles_of_active active) stage ?_ ?_
    · rw [State.marks_finish, State.marks_commit]
    · rw [State.finish_eq]
      rfl
  | @writeBroke party cycle batch written reason active stage free short =>
    refine .of_ended party ?_ ?_
    · rw [State.marks_breakDown, State.marks_write]
    · rw [State.breakDown_eq]
      rfl
  | abandon running => exact (endCycle ..).note rfl
  | arm active phase => exact (refl state).setWatcher _
  | rearm active phase known unheard => exact (refl state).setWatcher _
  | due active phase heard reached => exact ((refl state).setWatcher _).note rfl
  | resume active phase reached => exact ((refl state).setWatcher _).note rfl
  | launch active phase idle => exact .beginCycle ..
  | requestStop present => exact (refl state).setWatcher _
  | quitIdle present asked running idle => exact (refl state).setWatcher _
  | quitCycle present asked running inCycle => exact ((endCycle ..).note rfl).setWatcher _
  | lockSink fresh => exact (refl state).congr rfl rfl
  | unlockSink claimed unused => exact (refl state).congr rfl rfl
  | beginWait present kept => exact (refl state).setWatcher _
  | waitLate present late => exact (refl state).note rfl
  | finishWait present ended taken => exact ((refl state).setWatcher _).note rfl
  | dropWait present taken => exact (refl state).setWatcher _
  | advance later quiet timely => exact (refl state).congr rfl rfl

end LeaseStep

/-! ### Runs -/

/-- A mark that is there after some more have come was there before, or it is one of those. -/
theorem split_append {earlier more before after : List Mark} {mark : Mark}
    (split : earlier ++ more = before ++ mark :: after) :
    (∃ middle, earlier = before ++ mark :: middle ∧ after = middle ++ more) ∨
      ∃ middle, before = earlier ++ middle ∧ more = middle ++ mark :: after := by
  rcases List.append_eq_append_iff.mp split with
    ⟨middle, isBefore, isMore⟩ | ⟨rest, isEarlier, isAfter⟩
  · exact .inr ⟨middle, isBefore, isMore⟩
  · cases rest with
    | nil =>
      rw [List.append_nil] at isEarlier
      exact .inr ⟨[], by rw [isEarlier, List.append_nil], isAfter.symm⟩
    | cons first middle =>
      obtain ⟨rfl, rfl⟩ := List.cons.inj isAfter
      exact .inl ⟨middle, isEarlier, rfl⟩

/-- A commit of the interval for some leases, all of them granted by then. -/
def Commit.IsFor (commit : Commit) (grants : List (Nat × Duration)) : Prop :=
  (∃ tokenLease leases, grants.map Prod.snd = tokenLease :: leases ∧
    commit.batch.interval = intervalFor tokenLease leases) ∧
  ∀ grant ∈ grants, grant.1 ≤ commit.time

/-- The leases granted since the last call for a token are those of the cycle that is inside, and
every commit so far was of the interval for those of its cycle. -/
structure Granted (state : State sink) : Prop where
  past : ∀ mark ∈ state.marks, mark.time ≤ state.now
  stages : ∀ party cycle, state.cycles party = some cycle →
    cycle.stage.GrantedBy (openGrants state.marks)
  commits : ∀ before commit after, state.marks = before ++ .committed commit :: after →
    commit.IsFor (openGrants before)

namespace Granted

variable {state next : State sink}

theorem start (settings : LoaderSettings) (sinks : Target → sink) :
    Granted (State.start settings sinks) where
  past _ member := absurd member List.not_mem_nil
  stages _ _ running := by cases running
  commits before commit after split :=
    absurd split.symm (by simp [State.start, State.marks, extract])

/-- Marks that are made now are not of the future. -/
theorem past_append (granted : Granted state) (later : state.now ≤ next.now) {more : List Mark}
    (marks : next.marks = state.marks ++ more) (fresh : ∀ mark ∈ more, mark.time = state.now) :
    ∀ mark ∈ next.marks, mark.time ≤ next.now := by
  intro mark member
  rw [marks] at member
  rcases List.mem_append.mp member with old | new
  · exact Nat.le_trans (granted.past mark old) later
  · rw [fresh mark new]
    exact later

/-- Marks that are no commits make no difference to the commits. -/
theorem commits_append (granted : Granted state) {more : List Mark}
    (marks : next.marks = state.marks ++ more) (noCommit : ∀ commit, .committed commit ∉ more)
    {before after : List Mark} {commit : Commit}
    (split : next.marks = before ++ .committed commit :: after) :
    commit.IsFor (openGrants before) := by
  rw [marks] at split
  rcases split_append split with ⟨middle, earlier, -⟩ | ⟨middle, -, isMore⟩
  · exact granted.commits before commit middle earlier
  · exact absurd (by rw [isMore]; simp) (noCommit commit)

/-- Whoever is not inside has been granted nothing, so of the cycles only the one that is counts. -/
theorem stages_update {party : Party} (alone : ∀ other, state.IsInside other → other = party)
    {grants : List (Nat × Duration)} {own : Option Cycle}
    (fits : ∀ cycle ∈ own, cycle.stage.GrantedBy grants) (other : Party) (cycle : Cycle)
    (running : Function.update state.cycles party own other = some cycle) :
    cycle.stage.GrantedBy grants := by
  by_cases same : other = party
  · rw [same, Function.update_self] at running
    exact fits cycle running
  · rw [Function.update_of_ne same] at running
    have queued : cycle.stage = .queued := by
      by_contra called
      exact same (alone other ⟨cycle, running, called⟩)
    rw [queued]
    trivial

theorem step (granted : Granted state) (turns : OneTurn state) (later : state.now ≤ next.now)
    (step : LeaseStep state next) : Granted next := by
  cases step with
  | apart marks cycles =>
    rw [← List.append_nil state.marks] at marks
    refine ⟨granted.past_append later marks nofun, fun party cycle running => ?_,
      fun before commit after => granted.commits_append marks (fun _ => List.not_mem_nil)⟩
    rw [marks, List.append_nil]
    rcases cycles party cycle running with isQueued | before
    · rw [isQueued]
      trivial
    · exact granted.stages party cycle before
  | enters party cycle held marks cycles =>
    refine ⟨granted.past_append later marks (by simp [Mark.time]), ?_,
      fun before commit after => granted.commits_append marks (by simp)⟩
    rw [cycles, marks, openGrants_asked]
    refine stages_update (fun other isInside => ?_) fun after isAfter => ?_
    · exact Option.some.inj ((turns.inside other isInside).symm.trans held)
    · cases isAfter
      rfl
  | goesOn party cycle after lease running called marks cycles fits =>
    refine ⟨granted.past_append later marks ?_, ?_,
      fun before commit after => granted.commits_append marks (by simp)⟩
    · intro mark member
      obtain ⟨granted, -, rfl⟩ := List.mem_map.mp member
      rfl
    · have grants : openGrants next.marks =
          openGrants state.marks ++ lease.toList.map (state.now, ·) := by
        rw [marks]
        cases lease with
        | none =>
          exact (congrArg openGrants (List.append_nil _)).trans (List.append_nil _).symm
        | some lease => exact openGrants_granted ..
      rw [cycles, grants]
      refine stages_update (fun other isOther => ?_) fun moved isMoved => ?_
      · exact turns.unique isOther ⟨cycle, running, called⟩
      · cases isMoved
        exact fits _ (granted.stages party cycle running)
  | commits party cycle batch running stage marks cycles =>
    have isInside : state.IsInside party := ⟨cycle, running, by rw [stage]; nofun⟩
    refine ⟨granted.past_append later marks (by simp [Mark.time]), ?_,
      fun before commit after split => ?_⟩
    · rw [cycles]
      exact stages_update (fun other isOther => turns.unique isOther isInside) nofun
    · rw [marks] at split
      rcases split_append split with ⟨middle, earlier, -⟩ | ⟨middle, isBefore, isMore⟩
      · exact granted.commits before commit middle earlier
      · cases middle with
        | nil =>
          cases isMore
          rw [isBefore, List.append_nil]
          have fits := granted.stages party cycle running
          rw [stage] at fits
          refine ⟨fits, fun grant member => ?_⟩
          exact granted.past _ (mem_of_openGrants state.marks grant member)
        | cons first rest => simp at isMore

end Granted

/-- In every state each commit goes by the leases granted since its token was asked for. -/
theorem granted_of_run [ConfigSink sink] {settings : LoaderSettings} {sinks : Target → sink}
    {actions : List Action} {state : State sink}
    (run : (State.start settings sinks).run? actions = some state) : Granted state :=
  State.run_induction (fun _ state => Granted state) (.start settings sinks)
    (fun run granted move =>
      granted.step (oneTurn_of_run run) move.now_le (.of_move move)) run

end Loader

end SecretRenewal
