/-
This file asks who waits for whom. A cycle keeps its turn while it waits for the shared sink, and
a task that keeps the sink to itself may begin a cycle and so wait for its turn: the two locks are
taken in both orders. Where these two meet there is a ring, and it lasts until one of them gives
way. There are no other rings.
-/
import SecretRenewal.Proofs.Loader.Guards
import Mathlib.Logic.Relation

namespace SecretRenewal.Lock

variable {claimant : Type} {lock : Lock claimant} {claim : claimant}

/-- Whoever has a claim and does not hold the lock waits for it. -/
theorem mem_line_of_claims (claimed : claim ∈ lock.claims) (waits : lock.holder ≠ some claim) :
    claim ∈ lock.line := by
  rcases List.mem_append.mp claimed with holds | isInLine
  · exact absurd (Option.mem_toList.mp holds) waits
  · exact isInLine

theorem mem_claims_of_line (isInLine : claim ∈ lock.line) : claim ∈ lock.claims :=
  List.mem_append_right _ isInLine

/-- Nobody waits for a lock and holds it. -/
theorem WellFormed.not_mem_line (fair : lock.WellFormed) (held : lock.holder = some claim) :
    claim ∉ lock.line := by
  have nodup := fair.2
  rw [claims, held] at nodup
  exact (List.nodup_cons.mp nodup).1

end SecretRenewal.Lock

namespace SecretRenewal.Loader

variable {sink : Type}

/-- Who has a claim on the shared sink. -/
def SinkClaim.owner : SinkClaim → Party
  | .guarding host => .host host
  | .writing party => party

namespace State

/-- One waits for another that holds what it waits for. A task that has a cycle is waiting only
where that cycle is. -/
inductive WaitsFor (state : State sink) : Party → Party → Prop
  | forTurn {first second : Party} (waits : first ∈ state.turn.line)
      (held : state.turn.holder = some second) : WaitsFor state first second
  | toWrite {party : Party} {claim : SinkClaim} (waits : .writing party ∈ state.sinkLock.line)
      (held : state.sinkLock.holder = some claim) : WaitsFor state party claim.owner
  | toGuard {host : Nat} {claim : SinkClaim} (waits : .guarding host ∈ state.sinkLock.line)
      (idle : state.cycles (.host host) = none) (held : state.sinkLock.holder = some claim) :
      WaitsFor state (.host host) claim.owner

/-- Some wait for each other in a ring. -/
def HasRing (state : State sink) : Prop := ∃ party, Relation.TransGen state.WaitsFor party party

/-- A cycle waits for the sink, and the task that keeps the sink to itself has a cycle. -/
structure RingAt (state : State sink) (host : Nat) (party : Party) : Prop where
  kept : state.sinkLock.holder = some (.guarding host)
  busy : state.cycles (.host host) ≠ none
  writes : .writing party ∈ state.sinkLock.claims

end State

section

variable {state next : State sink} {action : Action} {host : Nat} {party other : Party}

/-- On a way round there is a next stop, and a way round from there. -/
theorem exists_next_of_ring {place : Type} {leads : place → place → Prop} {start : place}
    (ring : Relation.TransGen leads start start) :
    ∃ stop, leads start stop ∧ Relation.TransGen leads stop stop := by
  obtain ⟨stop, first, rest⟩ := Relation.TransGen.head'_iff.mp ring
  exact ⟨stop, first, .tail' rest first⟩

theorem OneTurn.cycle_of_holder (turns : OneTurn state) (held : state.turn.holder = some party) :
    state.cycles party ≠ none := by
  have claimed : party ∈ state.turn.claims := by
    rw [Lock.claims, held]
    exact List.mem_cons_self
  exact Option.isSome_iff_ne_none.mp ((turns.claimed party).mp claimed)

/-- Whoever waits to write holds its turn. -/
theorem Guarded.holder_of_writing (guarded : Guarded state) (turns : OneTurn state)
    (writes : .writing party ∈ state.sinkLock.claims) : state.turn.holder = some party := by
  obtain ⟨cycle, batch, running, -, stage⟩ := guarded.writing party writes
  exact turns.inside party ⟨cycle, running, by rw [stage]; nofun⟩

/-- If someone waits to write and whoever it waits for waits too, then that is a task with a
cycle. -/
theorem State.WaitsFor.ringAt (turns : OneTurn state) (guarded : Guarded state)
    {claim : SinkClaim} (writes : .writing party ∈ state.sinkLock.line)
    (held : state.sinkLock.holder = some claim) (waits : state.WaitsFor claim.owner other) :
    ∃ host, state.RingAt host party := by
  have claimed := Lock.mem_claims_of_line writes
  cases claim with
  | writing holder =>
    have claims : .writing holder ∈ state.sinkLock.claims := by
      rw [Lock.claims, held]
      exact List.mem_cons_self
    have same : holder = party := Option.some.inj
      ((guarded.holder_of_writing turns claims).symm.trans
        (guarded.holder_of_writing turns claimed))
    exact absurd (same ▸ writes) (guarded.fair.not_mem_line held)
  | guarding host =>
    refine ⟨host, held, ?_, claimed⟩
    generalize isOwner : SinkClaim.owner (.guarding host) = owner at waits
    cases waits with
    | forTurn waits =>
      rw [← isOwner] at waits
      exact Option.isSome_iff_ne_none.mp ((turns.claimed _).mp (Lock.mem_claims_of_line waits))
    | toWrite waits =>
      rw [← isOwner] at waits
      exact turns.cycle_of_holder
        (guarded.holder_of_writing turns (Lock.mem_claims_of_line waits))
    | toGuard waits idle =>
      cases isOwner
      exact absurd waits (guarded.fair.not_mem_line held)

/-- Nobody waits for a task that waits to keep the sink to itself. -/
theorem State.WaitsFor.not_waitsFor_guard (turns : OneTurn state) (guarded : Guarded state)
    (waits : .guarding host ∈ state.sinkLock.line) (idle : state.cycles (.host host) = none) :
    ¬ state.WaitsFor party (.host host) := by
  have notHolder {claim : SinkClaim} (held : state.sinkLock.holder = some claim) :
      claim.owner ≠ .host host := by
    intro isOwner
    cases claim with
    | guarding number =>
      cases isOwner
      exact guarded.fair.not_mem_line held waits
    | writing writer =>
      refine guarded.not_writing idle ?_
      rw [Lock.claims, held, ← isOwner]
      exact List.mem_cons_self
  intro edge
  generalize isTarget : Party.host host = target at edge
  cases edge with
  | forTurn _ held =>
    rw [← isTarget] at held
    exact turns.cycle_of_holder held idle
  | toWrite _ held => exact notHolder held isTarget.symm
  | toGuard _ _ held => exact notHolder held isTarget.symm

/-- Whoever holds its turn waits to write if it waits at all. -/
theorem State.WaitsFor.toWrite_of_holder (turns : OneTurn state)
    (held : state.turn.holder = some party) (edge : state.WaitsFor party other) :
    ∃ claim : SinkClaim, .writing party ∈ state.sinkLock.line ∧
      state.sinkLock.holder = some claim ∧ other = claim.owner := by
  cases edge with
  | forTurn waits => exact absurd waits (turns.fair.not_mem_line held)
  | @toWrite party claim waits kept => exact ⟨claim, waits, kept, rfl⟩
  | toGuard waits idle => exact absurd idle (turns.cycle_of_holder held)

theorem State.HasRing.exists_ringAt (turns : OneTurn state) (guarded : Guarded state)
    (ring : state.HasRing) : ∃ host party, state.RingAt host party := by
  -- Five stops in a row: the second is waited for, and the next two are left again.
  obtain ⟨before, ring⟩ := ring
  obtain ⟨start, arrives, ring⟩ := exists_next_of_ring ring
  obtain ⟨stop, edge, ring⟩ := exists_next_of_ring ring
  obtain ⟨further, leaves, ring⟩ := exists_next_of_ring ring
  obtain ⟨last, goesOn, -⟩ := exists_next_of_ring ring
  cases edge with
  | forTurn waits held =>
    obtain ⟨claim, writes, kept, rfl⟩ := State.WaitsFor.toWrite_of_holder turns held leaves
    obtain ⟨host, ring⟩ := State.WaitsFor.ringAt turns guarded writes kept goesOn
    exact ⟨host, _, ring⟩
  | toWrite writes kept =>
    obtain ⟨host, ring⟩ := State.WaitsFor.ringAt turns guarded writes kept leaves
    exact ⟨host, _, ring⟩
  | toGuard waits idle =>
    exact absurd arrives (State.WaitsFor.not_waitsFor_guard turns guarded waits idle)

namespace State.RingAt

theorem hasRing (ring : state.RingAt host party) (turns : OneTurn state)
    (guarded : Guarded state) : state.HasRing := by
  have held := guarded.holder_of_writing turns ring.writes
  have writes : state.WaitsFor party (SinkClaim.guarding host).owner :=
    .toWrite (Lock.mem_line_of_claims ring.writes (by rw [ring.kept]; nofun)) ring.kept
  by_cases same : party = .host host
  · rw [same] at writes
    exact ⟨_, .single writes⟩
  · have claimed : .host host ∈ state.turn.claims :=
      (turns.claimed _).mpr (Option.isSome_iff_ne_none.mpr ring.busy)
    have waits : .host host ∈ state.turn.line := Lock.mem_line_of_claims claimed
      (by rw [held]; exact fun isHost => same (Option.some.inj isHost))
    exact ⟨party, .tail (.single writes) (.forTurn waits held)⟩

end State.RingAt

/-- A step by which one of the two gives way: the task lets go of the sink, or one of the cycles is
given up. -/
def Action.GivesWay (host : Nat) (party : Party) (action : Action) : Prop :=
  action = .unlockSink host ∨ action.GivesUp (.host host) ∨ action.GivesUp party

/-- While there is a ring, a cycle only ends because it is given up: the cycle that has its turn
waits to write, and the sink is not free for it. -/
theorem State.RingAt.givesUp (ring : state.RingAt host party) (turns : OneTurn state)
    (guarded : Guarded state) {other : Party} {cycle : Cycle}
    (running : state.cycles other = some cycle) (cause : state.CanEnd other cycle action) :
    action.GivesUp other := by
  obtain ⟨writer, batch, writing, locking, isStaged⟩ := guarded.writing party ring.writes
  have isInside : state.IsInside party := ⟨writer, writing, by rw [isStaged]; nofun⟩
  cases cause with
  | gaveUp gives => exact gives
  | failed fails calling =>
    have called : state.IsInside other :=
      ⟨cycle, running, fun queued => by rw [queued] at calling; cases calling⟩
    rw [turns.unique called isInside, writing] at running
    cases running
    rw [isStaged] at calling
    cases calling
  | wrote written stage free =>
    have called : state.IsInside other := ⟨cycle, running, by rw [stage]; nofun⟩
    rw [turns.unique called isInside] at running free
    cases writing.symm.trans running
    rw [locking] at free
    have mine := (beq_iff_eq.mp free).symm.trans ring.kept
    cases mine

/-- A ring stays as it is until one of the two gives way, whatever anyone else does. -/
theorem State.RingAt.step (ring : state.RingAt host party) (turns : OneTurn state)
    (guarded : Guarded state) (step : LockStep state action next)
    (firm : ¬ action.GivesWay host party) :
    next.RingAt host party ∧ next.cycles (.host host) = state.cycles (.host host) ∧
      next.cycles party = state.cycles party := by
  obtain ⟨writer, batch, writing, locking, isStaged⟩ := guarded.writing party ring.writes
  have isInside : state.IsInside party := ⟨writer, writing, by rw [isStaged]; nofun⟩
  have held : state.turn.holder = some party := turns.inside party isInside
  have kept := ring.kept
  cases step with
  | apart cycles turn sinkLock =>
    rw [cycles]
    exact ⟨⟨sinkLock ▸ kept, cycles ▸ ring.busy, sinkLock ▸ ring.writes⟩, rfl, rfl⟩
  | begun other delivery begins idle cycles turn sinkLock =>
    have notHost : .host host ≠ other := fun same => ring.busy (same ▸ idle)
    have notParty : party ≠ other := by
      rintro rfl
      rw [idle] at writing
      cases writing
    rw [cycles, Function.update_of_ne notHost, Function.update_of_ne notParty]
    refine ⟨⟨sinkLock ▸ kept, ?_, sinkLock ▸ ring.writes⟩, rfl, rfl⟩
    rw [cycles, Function.update_of_ne notHost]
    exact ring.busy
  | moved other cycle after running lacks first cycles turn sinkLock =>
    have same : other = party :=
      Option.some.inj ((turns.holder_of_move running first).symm.trans held)
    rw [same, writing] at running
    cases running
    exact absurd isStaged (lacks batch)
  | asked claim fresh asks cycles turn sinkLock =>
    rw [cycles]
    refine ⟨⟨?_, cycles ▸ ring.busy, ?_⟩, rfl, rfl⟩
    · rw [sinkLock]
      exact Lock.holder_ask_of_holder kept _
    · rw [sinkLock, Lock.mem_claims_ask guarded.fair]
      exact .inl ring.writes
  | unguarded other isUnlock cycles turn sinkLock =>
    have different : host ≠ other := by
      rintro rfl
      exact firm (.inl isUnlock)
    rw [cycles]
    refine ⟨⟨?_, cycles ▸ ring.busy, ?_⟩, rfl, rfl⟩
    · rw [sinkLock]
      exact Lock.holder_leave_of_ne kept fun same => different (SinkClaim.guarding.inj same)
    · rw [sinkLock, Lock.mem_claims_leave guarded.fair]
      exact ⟨ring.writes, by nofun⟩
  | ended other cycle running cause cycles turn sinkLock =>
    have gives := ring.givesUp turns guarded running cause
    have notHost : .host host ≠ other := by
      rintro rfl
      exact firm (.inr (.inl gives))
    have notParty : party ≠ other := by
      rintro rfl
      exact firm (.inr (.inr gives))
    rw [cycles, Function.update_of_ne notHost, Function.update_of_ne notParty]
    refine ⟨⟨?_, ?_, ?_⟩, rfl, rfl⟩
    · rw [sinkLock]
      exact Lock.holder_leave_of_ne kept (by nofun)
    · rw [cycles, Function.update_of_ne notHost]
      exact ring.busy
    · rw [sinkLock, Lock.mem_claims_leave guarded.fair]
      exact ⟨ring.writes, fun same => notParty (SinkClaim.writing.inj same)⟩

end

theorem State.RingAt.later [ConfigSink sink] {settings : LoaderSettings} {sinks : Target → sink}
    {actions : List Action} {state : State sink} {host : Nat} {party : Party}
    (ring : state.RingAt host party)
    (run : (State.start settings sinks).run? actions = some state) {rest : List Action}
    {later : State sink} (further : state.run? rest = some later)
    (firm : ∀ action ∈ rest, ¬ action.GivesWay host party) :
    later.RingAt host party ∧ later.cycles (.host host) = state.cycles (.host host) ∧
      later.cycles party = state.cycles party := by
  refine State.run_induction (fun taken later => (∀ action ∈ taken, ¬ action.GivesWay host party) →
    later.RingAt host party ∧ later.cycles (.host host) = state.cycles (.host host) ∧
      later.cycles party = state.cycles party) (fun _ => ⟨ring, rfl, rfl⟩) ?_ further firm
  intro taken middle action next before standing move firm
  have whole : (State.start settings sinks).run? (actions ++ taken) = some middle := by
    rw [State.run?_append, run]
    exact before
  obtain ⟨ring, sameHost, sameParty⟩ :=
    standing fun other member => firm other (List.mem_append_left _ member)
  obtain ⟨ringNext, hostNext, partyNext⟩ := ring.step (oneTurn_of_run whole)
    (guarded_of_run whole) (.of_move move)
    (firm action (List.mem_append_right _ (List.mem_singleton_self _)))
  exact ⟨ringNext, hostNext.trans sameHost, partyNext.trans sameParty⟩

end SecretRenewal.Loader
