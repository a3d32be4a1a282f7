/-
This file follows the lock of the shared sink. A task of the program claims it to keep the sink to
itself, and a cycle claims it to write; a cycle does so only once it has everything, and its claim
is gone when the cycle is. So of all the claims on the sink at most one is that of a cycle, and
everyone else who has one is a task that can let go of it.
-/
import SecretRenewal.Proofs.Loader.Locks
import SecretRenewal.Proofs.Loader.Turns

namespace SecretRenewal.Loader

variable {sink : Type}

/-- What a step does to the claims on the shared sink: nothing, as long as the cycles that have
everything stay as they are, or one of them is made or taken back. -/
inductive SinkStep (state next : State sink) : Prop
  | apart (same : next.sinkLock = state.sinkLock)
      (stays : ∀ party cycle batch, state.cycles party = some cycle →
        cycle.stage = .staged batch → next.cycles party = some cycle)
  | asked (party : Party) (cycle : Cycle) (batch : Staged)
      (running : state.cycles party = some cycle) (locking : cycle.delivery = .locking)
      (stage : cycle.stage = .staged batch) (fresh : .writing party ∉ state.sinkLock.claims)
      (lock : next.sinkLock = state.sinkLock.ask (.writing party))
      (cycles : next.cycles = state.cycles)
  | guarded (host : Nat) (fresh : .guarding host ∉ state.sinkLock.claims)
      (lock : next.sinkLock = state.sinkLock.ask (.guarding host))
      (cycles : next.cycles = state.cycles)
  | unguarded (host : Nat) (lock : next.sinkLock = state.sinkLock.leave (.guarding host))
      (cycles : next.cycles = state.cycles)
  | ended (party : Party) (lock : next.sinkLock = state.sinkLock.leave (.writing party))
      (cycles : next.cycles = Function.update state.cycles party none)

theorem SinkStep.of_lockStep {state next : State sink} {action : Action}
    (step : LockStep state action next) : SinkStep state next := by
  cases step with
  | apart cycles turn sinkLock =>
    exact .apart sinkLock fun party cycle batch running _ => cycles ▸ running
  | begun party delivery begins idle cycles turn sinkLock =>
    refine .apart sinkLock fun other cycle batch running _ => ?_
    have isOther : other ≠ party := by
      rintro rfl
      rw [idle] at running
      cases running
    rw [cycles, Function.update_of_ne isOther]
    exact running
  | moved party cycle after running lacks first cycles turn sinkLock =>
    refine .apart sinkLock fun other staged batch runs stage => ?_
    have isOther : other ≠ party := by
      rintro rfl
      rw [running] at runs
      cases runs
      exact lacks batch stage
    rw [cycles, Function.update_of_ne isOther]
    exact runs
  | asked claim fresh asks cycles turn sinkLock =>
    cases asks with
    | @toGuard host isLock => exact .guarded host fresh sinkLock cycles
    | @toWrite party cycle batch running locking stage =>
      exact .asked party cycle batch running locking stage fresh sinkLock cycles
  | unguarded host isUnlock cycles turn sinkLock => exact .unguarded host sinkLock cycles
  | ended party cycle running cause cycles turn sinkLock => exact .ended party sinkLock cycles

theorem SinkStep.of_move [ConfigSink sink] {state next : State sink} {action : Action}
    (move : Move state action next) : SinkStep state next :=
  .of_lockStep (.of_move move)

/-- A cycle claims the sink only when it has everything and is going to lock it. -/
structure Guarded (state : State sink) : Prop where
  fair : state.sinkLock.WellFormed
  writing : ∀ party, .writing party ∈ state.sinkLock.claims → ∃ cycle batch,
    state.cycles party = some cycle ∧ cycle.delivery = .locking ∧ cycle.stage = .staged batch

namespace Guarded

variable {state next : State sink}

theorem start (settings : LoaderSettings) (sinks : Target → sink) :
    Guarded (State.start settings sinks) :=
  ⟨Lock.wellFormed_free, fun _ member => absurd member List.not_mem_nil⟩

theorem step (guarded : Guarded state) (step : SinkStep state next) : Guarded next := by
  cases step with
  | apart same stays =>
    refine ⟨same ▸ guarded.fair, fun party member => ?_⟩
    obtain ⟨cycle, batch, running, locking, stage⟩ := guarded.writing party (same ▸ member)
    exact ⟨cycle, batch, stays party cycle batch running stage, locking, stage⟩
  | asked party cycle batch running locking stage fresh lock cycles =>
    refine ⟨lock ▸ guarded.fair.ask fresh, fun other member => ?_⟩
    rw [lock, Lock.mem_claims_ask guarded.fair] at member
    rw [cycles]
    rcases member with earlier | same
    · exact guarded.writing other earlier
    · cases same
      exact ⟨cycle, batch, running, locking, stage⟩
  | guarded host fresh lock cycles =>
    refine ⟨lock ▸ guarded.fair.ask fresh, fun party member => ?_⟩
    rw [lock, Lock.mem_claims_ask guarded.fair] at member
    rw [cycles]
    rcases member with earlier | same
    · exact guarded.writing party earlier
    · cases same
  | unguarded host lock cycles =>
    refine ⟨lock ▸ guarded.fair.leave _, fun party member => ?_⟩
    rw [lock, Lock.mem_claims_leave guarded.fair] at member
    rw [cycles]
    exact guarded.writing party member.1
  | ended party lock cycles =>
    refine ⟨lock ▸ guarded.fair.leave _, fun other member => ?_⟩
    rw [lock, Lock.mem_claims_leave guarded.fair] at member
    have isOther : other ≠ party := fun same => member.2 (congrArg SinkClaim.writing same)
    rw [cycles, Function.update_of_ne isOther]
    exact guarded.writing other member.1

/-- A party without a cycle has no claim on the sink for one. -/
theorem not_writing (guarded : Guarded state) {party : Party} (idle : state.cycles party = none) :
    .writing party ∉ state.sinkLock.claims := by
  intro member
  obtain ⟨cycle, batch, running, -⟩ := guarded.writing party member
  rw [idle] at running
  cases running

/-- The only cycle with a claim on the sink is the one that is inside. -/
theorem writing_unique (guarded : Guarded state) (turns : OneTurn state) {party other : Party}
    (isInside : state.IsInside party) (member : .writing other ∈ state.sinkLock.claims) :
    other = party := by
  obtain ⟨cycle, batch, running, -, stage⟩ := guarded.writing other member
  exact turns.unique ⟨cycle, running, by rw [stage]; nofun⟩ isInside

end Guarded

theorem guarded_of_run [ConfigSink sink] {settings : LoaderSettings} {sinks : Target → sink}
    {actions : List Action} {state : State sink}
    (run : (State.start settings sinks).run? actions = some state) : Guarded state :=
  State.run_induction (fun _ state => Guarded state) (.start settings sinks)
    (fun _ guarded move => guarded.step (.of_move move)) run

end SecretRenewal.Loader
