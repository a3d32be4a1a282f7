/-
This file says when cycles can end. A task that has a cycle does not let go of the shared sink
before that is over. So it is in the way of every cycle that has to lock the sink and does not
come after it in the line for the turn: sooner or later the two are in a ring. Where no task is in
the way of a cycle, whatever the calls return, all cycles can end without anyone giving way; and
where one is, they cannot.
-/
import SecretRenewal.Proofs.Loader.Background
import SecretRenewal.Proofs.Loader.Outcomes
import SecretRenewal.Proofs.Loader.Rings

namespace SecretRenewal.Lock

variable {claimant : Type} {lock : Lock claimant} {first second claim : claimant}

/-- One has a claim, and another has none that comes before it. -/
def NotAfter (lock : Lock claimant) (first second : claimant) : Prop :=
  ∃ ahead behind, lock.claims = ahead ++ first :: behind ∧ second ∉ ahead

theorem NotAfter.of_holder (held : lock.holder = some first) (second : claimant) :
    lock.NotAfter first second := by
  refine ⟨[], lock.line, ?_, List.not_mem_nil⟩
  rw [claims, held]
  rfl

theorem NotAfter.mem_claims (before : lock.NotAfter first second) : first ∈ lock.claims := by
  obtain ⟨ahead, behind, split, -⟩ := before
  rw [split]
  exact List.mem_append_right _ List.mem_cons_self

/-- The lock is held by the first of its claims. -/
theorem NotAfter.holder_ne (before : lock.NotAfter first second) (different : second ≠ first) :
    lock.holder ≠ some second := by
  obtain ⟨ahead, behind, split, notAhead⟩ := before
  intro held
  rw [claims, held, Option.toList_some, List.singleton_append] at split
  cases ahead with
  | nil => exact different (List.cons.inj split).1
  | cons holder rest =>
    rw [(List.cons.inj split).1] at notAhead
    exact notAhead List.mem_cons_self

/-- Whoever asks gets behind all that are there. -/
theorem notAfter_ask (fair : lock.WellFormed) (other : claim ≠ first) :
    (lock.ask claim).NotAfter first second ↔ lock.NotAfter first second := by
  unfold NotAfter
  rw [claims_ask fair]
  refine ⟨fun ⟨ahead, behind, split, notAhead⟩ => ?_, fun ⟨ahead, behind, split, notAhead⟩ => ?_⟩
  · rcases List.eq_nil_or_concat behind with rfl | ⟨rest, last, rfl⟩
    · have same := (List.append_inj' split rfl).2
      exact absurd (List.cons.inj same).1 other
    · refine ⟨ahead, rest, ?_, notAhead⟩
      rw [List.concat_eq_append, ← List.cons_append, ← List.append_assoc] at split
      exact (List.append_inj' split rfl).1
  · exact ⟨ahead, behind ++ [claim], by simp [split], notAhead⟩

variable [DecidableEq claimant]

theorem NotAfter.leave (before : lock.NotAfter first second) (fair : lock.WellFormed)
    (stays : claim ≠ first) : (lock.leave claim).NotAfter first second := by
  obtain ⟨ahead, behind, split, notAhead⟩ := before
  refine ⟨ahead.filter (· ≠ claim), behind.filter (· ≠ claim), ?_, fun member => ?_⟩
  · rw [claims_leave fair, split, List.filter_append, List.filter_cons_of_pos]
    exact decide_eq_true (Ne.symm stays)
  · exact notAhead (List.mem_filter.mp member).1

theorem NotAfter.of_leave (before : (lock.leave claim).NotAfter first second)
    (fair : lock.WellFormed) (stays : claim ≠ second) : lock.NotAfter first second := by
  obtain ⟨left, behind, split, notAhead⟩ := before
  rw [claims_leave fair] at split
  obtain ⟨ahead, rest, isAppend, rfl, isRest⟩ := List.filter_eq_append_iff.mp split
  obtain ⟨gone, further, rfl, areGone, -, -⟩ := List.filter_eq_cons_iff.mp isRest
  refine ⟨ahead ++ gone, further, by rw [isAppend, List.append_assoc], fun member => ?_⟩
  rcases List.mem_append.mp member with isAhead | isGone
  · exact notAhead (List.mem_filter.mpr ⟨isAhead, decide_eq_true (Ne.symm stays)⟩)
  · exact areGone second isGone (decide_eq_true (Ne.symm stays))

end SecretRenewal.Lock

namespace SecretRenewal.Loader

variable {sink : Type}

/-- How the values of the cycle of a party reach their sink, if it has one. -/
def State.delivery? (state : State sink) (party : Party) : Option Delivery :=
  (state.cycles party).map Cycle.delivery

/-- A task has a cycle, and keeps the shared sink or waits for it. A cycle that has to lock the
sink comes no earlier than the task in the line for the sink, and no later in the line for the
turn. -/
structure State.Obstructs (state : State sink) (host : Nat) (party : Party) : Prop where
  busy : state.delivery? (.host host) ≠ none
  may : state.mayAct party = true
  locks : state.delivery? party = some .locking
  sinkLock : state.sinkLock.NotAfter (.guarding host) (.writing party)
  turn : state.turn.NotAfter party (.host host)

section

variable {state next : State sink} {action : Action} {host : Nat} {party other : Party}
  {cycle : Cycle}

theorem State.delivery?_congr (cycles : next.cycles = state.cycles) :
    next.delivery? = state.delivery? := by
  funext party
  unfold delivery?
  rw [cycles]

theorem State.delivery?_of_moved {after : Stage} (running : state.cycles other = some cycle)
    (cycles : next.cycles =
      Function.update state.cycles other (some { cycle with stage := after })) :
    next.delivery? = state.delivery? := by
  funext party
  unfold delivery?
  rw [cycles]
  by_cases same : party = other
  · rw [same, Function.update_self, running]
    rfl
  · rw [Function.update_of_ne same]

theorem State.delivery?_of_ne {after : Option Cycle}
    (cycles : next.cycles = Function.update state.cycles other after) (different : party ≠ other) :
    next.delivery? party = state.delivery? party := by
  unfold delivery?
  rw [cycles, Function.update_of_ne different]

theorem State.delivery?_of_idle (idle : state.cycles party = none) :
    state.delivery? party = none := by
  rw [delivery?, idle]
  rfl

namespace State.Obstructs

theorem congr (obstructs : state.Obstructs host party)
    (sameHost : next.delivery? (.host host) = state.delivery? (.host host))
    (sameParty : next.delivery? party = state.delivery? party)
    (mayAct : next.mayAct party = state.mayAct party)
    (sinkLock : next.sinkLock.NotAfter (.guarding host) (.writing party))
    (turn : next.turn.NotAfter party (.host host)) : next.Obstructs host party :=
  ⟨sameHost ▸ obstructs.busy, mayAct ▸ obstructs.may, sameParty ▸ obstructs.locks, sinkLock, turn⟩

theorem ne_of_idle (obstructs : state.Obstructs host party) (idle : state.cycles other = none) :
    .host host ≠ other ∧ party ≠ other := by
  have nothing : state.delivery? other = none := State.delivery?_of_idle idle
  refine ⟨fun same => obstructs.busy (same ▸ nothing), fun same => ?_⟩
  have locks := obstructs.locks
  rw [same, nothing] at locks
  cases locks

end State.Obstructs

/-- A ring is an obstruction that it is too late for. -/
theorem State.RingAt.obstructs (ring : state.RingAt host party) (turns : OneTurn state)
    (guarded : Guarded state) (may : state.mayAct party = true) : state.Obstructs host party := by
  obtain ⟨cycle, batch, running, locking, stage⟩ := guarded.writing party ring.writes
  refine ⟨fun nothing => ring.busy (Option.map_eq_none_iff.mp nothing), may, ?_,
    .of_holder ring.kept _, .of_holder (guarded.holder_of_writing turns ring.writes) _⟩
  rw [delivery?, running, Option.map_some, locking]

namespace State.Obstructs

/-- An obstruction stays as long as nobody gives way and no call fails. -/
theorem step (obstructs : state.Obstructs host party) (turns : OneTurn state)
    (guarded : Guarded state) (step : LockStep state action next)
    (mayAct : next.mayAct party = state.mayAct party) (firm : ¬ action.GivesWay host party)
    (succeeds : action.fails = false) : next.Obstructs host party := by
  cases step with
  | apart cycles turn sinkLock =>
    have same : next.delivery? = state.delivery? := State.delivery?_congr cycles
    exact obstructs.congr (congrFun same _) (congrFun same _) mayAct
      (sinkLock ▸ obstructs.sinkLock) (turn ▸ obstructs.turn)
  | begun other delivery begins idle cycles turn sinkLock =>
    obtain ⟨notHost, notParty⟩ := obstructs.ne_of_idle idle
    refine obstructs.congr (State.delivery?_of_ne cycles notHost)
      (State.delivery?_of_ne cycles notParty) mayAct (sinkLock ▸ obstructs.sinkLock) ?_
    rw [turn, Lock.notAfter_ask turns.fair notParty.symm]
    exact obstructs.turn
  | moved other cycle after running lacks first cycles turn sinkLock =>
    have same : next.delivery? = state.delivery? := State.delivery?_of_moved running cycles
    exact obstructs.congr (congrFun same _) (congrFun same _) mayAct
      (sinkLock ▸ obstructs.sinkLock) (turn ▸ obstructs.turn)
  | asked claim fresh asks cycles turn sinkLock =>
    have same : next.delivery? = state.delivery? := State.delivery?_congr cycles
    refine obstructs.congr (congrFun same _) (congrFun same _) mayAct ?_ (turn ▸ obstructs.turn)
    have other : claim ≠ .guarding host := fun isHost =>
      fresh (isHost ▸ obstructs.sinkLock.mem_claims)
    rw [sinkLock, Lock.notAfter_ask guarded.fair other]
    exact obstructs.sinkLock
  | unguarded other isUnlock cycles turn sinkLock =>
    have same : next.delivery? = state.delivery? := State.delivery?_congr cycles
    refine obstructs.congr (congrFun same _) (congrFun same _) mayAct ?_ (turn ▸ obstructs.turn)
    rw [sinkLock]
    refine obstructs.sinkLock.leave guarded.fair fun isHost => ?_
    cases isHost
    exact firm (.inl isUnlock)
  | ended other cycle running cause cycles turn sinkLock =>
    have apart : .host host ≠ other ∧ party ≠ other := by
      cases cause with
      | gaveUp gives =>
        refine ⟨?_, ?_⟩
        · rintro rfl
          exact firm (.inr (.inl gives))
        · rintro rfl
          exact firm (.inr (.inr gives))
      | failed fails calling =>
        rw [succeeds] at fails
        cases fails
      | wrote batch stage free =>
        -- Whoever writes holds its turn, and the sink if it has to lock it.
        have held := turns.inside other ⟨cycle, running, by rw [stage]; nofun⟩
        have notParty : party ≠ other := by
          rintro rfl
          have locks := obstructs.locks
          rw [State.delivery?, running, Option.map_some] at locks
          rw [Option.some.inj locks] at free
          exact obstructs.sinkLock.holder_ne (by nofun) (beq_iff_eq.mp free)
        refine ⟨fun isHost => ?_, notParty⟩
        rw [← isHost] at held notParty
        exact obstructs.turn.holder_ne notParty.symm held
    refine obstructs.congr (State.delivery?_of_ne cycles apart.1)
      (State.delivery?_of_ne cycles apart.2) mayAct ?_ ?_
    · rw [sinkLock]
      exact obstructs.sinkLock.leave guarded.fair (by nofun)
    · rw [turn]
      exact obstructs.turn.leave turns.fair apart.2.symm

/-- An obstruction that is there after a step was there before, unless a cycle began with the step
or a task asked for the sink. -/
theorem of_step (obstructs : next.Obstructs host party) (turns : OneTurn state)
    (guarded : Guarded state) (step : LockStep state action next)
    (mayAct : next.mayAct party = state.mayAct party) (goesOn : action.begins = false)
    (noLock : ∀ host, action ≠ .lockSink host) : state.Obstructs host party := by
  cases step with
  | apart cycles turn sinkLock =>
    have same : next.delivery? = state.delivery? := State.delivery?_congr cycles
    exact obstructs.congr (congrFun same.symm _) (congrFun same.symm _) mayAct.symm
      (sinkLock ▸ obstructs.sinkLock) (turn ▸ obstructs.turn)
  | begun other delivery begins idle cycles turn sinkLock =>
    rw [goesOn] at begins
    cases begins
  | moved other cycle after running lacks first cycles turn sinkLock =>
    have same : next.delivery? = state.delivery? := State.delivery?_of_moved running cycles
    exact obstructs.congr (congrFun same.symm _) (congrFun same.symm _) mayAct.symm
      (sinkLock ▸ obstructs.sinkLock) (turn ▸ obstructs.turn)
  | asked claim fresh asks cycles turn sinkLock =>
    have same : next.delivery? = state.delivery? := State.delivery?_congr cycles
    refine obstructs.congr (congrFun same.symm _) (congrFun same.symm _) mayAct.symm ?_
      (turn ▸ obstructs.turn)
    have other : claim ≠ .guarding host := by
      rintro rfl
      cases asks with
      | toGuard isLock => exact noLock host isLock
    have after := obstructs.sinkLock
    rwa [sinkLock, Lock.notAfter_ask guarded.fair other] at after
  | unguarded other isUnlock cycles turn sinkLock =>
    have same : next.delivery? = state.delivery? := State.delivery?_congr cycles
    refine obstructs.congr (congrFun same.symm _) (congrFun same.symm _) mayAct.symm ?_
      (turn ▸ obstructs.turn)
    have after := obstructs.sinkLock
    rw [sinkLock] at after
    exact after.of_leave guarded.fair (by nofun)
  | ended other cycle running cause cycles turn sinkLock =>
    have idle : next.cycles other = none := by rw [cycles, Function.update_self]
    obtain ⟨notHost, notParty⟩ := obstructs.ne_of_idle idle
    have sinkAfter := obstructs.sinkLock
    have turnAfter := obstructs.turn
    rw [sinkLock] at sinkAfter
    rw [turn] at turnAfter
    exact obstructs.congr (State.delivery?_of_ne cycles notHost).symm
      (State.delivery?_of_ne cycles notParty).symm mayAct.symm
      (sinkAfter.of_leave guarded.fair fun same => notParty (SinkClaim.writing.inj same).symm)
      (turnAfter.of_leave turns.fair notHost.symm)

end State.Obstructs

end

/-! ### Going on -/

/-- Whether an action carries a cycle on with the answers that its calls are given, and nobody
gives way for it: a task lets go of the shared sink only when it has no cycle, and the background
task gives its cycle up only when it was asked to stop before. -/
def State.GoesOn (state : State sink) (answers : Party → Answers) : Action → Prop
  | .enter _ | .tokenTaken _ | .askSink _ | .commit _ | .quit => True
  | .tokenReturned party answer => answer = (answers party).token
  | .readReturned party answer => ∃ cycle gathering, state.cycles party = some cycle ∧
      cycle.stage = .reading gathering ∧
      answer = (answers party).secret gathering.remaining.length
  | .unlockSink host => state.cycles (.host host) = none
  | _ => False

/-- Whether no call fails. -/
def Answers.Succeed (answers : Answers) : Prop :=
  answers.token.isOk = true ∧ ∀ left, (answers.secret left).isOk = true

/-- Every call returns something. -/
def Answers.fine : Answers where
  token := .ok ⟨"", Duration.zero⟩
  secret _ := .ok { payload := [], lease := Duration.zero }

theorem Answers.fine_succeed : Answers.fine.Succeed := ⟨rfl, fun _ => rfl⟩

/-- Some such actions lead from one state to another. -/
def State.Onward [ConfigSink sink] (answers : Party → Answers) :
    State sink → State sink → Prop :=
  Relation.ReflTransGen fun state next =>
    ∃ action, state.GoesOn answers action ∧ state.step? action = some next

/-- How much a cycle that has got to a stage has left to do, out of so many secrets. -/
def Stage.left (secrets : Nat) : Stage → Nat
  | .queued => secrets + 4
  | .authenticating => secrets + 3
  | .handingOver _ => secrets + 2
  | .reading gathering => gathering.remaining.length + 1
  | .staged _ => 0

/-- How much a party has left to do until it has everything. -/
def State.toGather (state : State sink) (party : Party) : Nat :=
  ((state.cycles party).map fun cycle => cycle.stage.left state.settings.secrets.length).getD 0

/-- How much a party has left to do until it holds the shared sink: to ask for it, and to wait
until all claims on it are gone. -/
def SinkClaim.toWrite (lock : Lock SinkClaim) (party : Party) : Nat :=
  (if .writing party ∈ lock.claims then 0 else 2) + lock.claims.length

def State.toDo (state : State sink) (party : Party) : Nat :=
  state.toGather party + SinkClaim.toWrite state.sinkLock party

section

variable {state next : State sink} {action : Action} {party : Party} {answers : Party → Answers}

theorem State.GoesOn.starts_nothing (goes : state.GoesOn answers action) :
    action.begins = false ∧ (∀ host, action ≠ .lockSink host) ∧ action ≠ .requestStop := by
  cases action with
  | begin host delivery => cases goes
  | launch => cases goes
  | lockSink host => cases goes
  | requestStop => cases goes
  | _ => exact ⟨rfl, nofun, nofun⟩

theorem State.GoesOn.fails_eq_false (goes : state.GoesOn answers action)
    (succeeds : ∀ party, (answers party).Succeed) : action.fails = false := by
  cases action with
  | tokenReturned party answer =>
    have isOk : answer.isOk = true := goes ▸ (succeeds party).1
    cases answer with
    | ok auth => rfl
    | error error => cases isOk
  | readReturned party answer =>
    obtain ⟨cycle, gathering, -, -, isAnswer⟩ := goes
    have isOk : answer.isOk = true := isAnswer ▸ (succeeds party).2 _
    cases answer with
    | ok secret => rfl
    | error error => cases isOk
  | callBroke party reason => cases goes
  | _ => rfl

theorem Stage.left_afterToken (secrets : List SecretDescriptor) (tokenLease : Duration) :
    (Stage.afterToken secrets tokenLease).left secrets.length ≤ secrets.length := by
  cases secrets with
  | nil => exact Nat.le_refl 0
  | cons current remaining => exact Nat.le_refl _

theorem Stage.left_afterRead (secrets : Nat) (gathering : Gathering) (secret : Secret) :
    (Stage.afterRead gathering secret).left secrets ≤ gathering.remaining.length := by
  unfold Stage.afterRead
  cases gathering.remaining with
  | nil => exact Nat.le_refl 0
  | cons current remaining => exact Nat.le_refl _

theorem State.toDo_lt_of_moved {cycle : Cycle} {after : Stage}
    (running : state.cycles party = some cycle) (settings : next.settings = state.settings)
    (cycles : next.cycles =
      Function.update state.cycles party (some { cycle with stage := after }))
    (sinkLock : next.sinkLock = state.sinkLock)
    (less : after.left state.settings.secrets.length <
      cycle.stage.left state.settings.secrets.length) : next.toDo party < state.toDo party := by
  unfold toDo toGather
  rw [cycles, Function.update_self, running, settings, sinkLock]
  exact Nat.add_lt_add_right less _

theorem SinkClaim.toWrite_ask {lock : Lock SinkClaim} (fair : lock.WellFormed)
    (fresh : .writing party ∉ lock.claims) :
    toWrite (lock.ask (.writing party)) party < toWrite lock party := by
  have isAsked : .writing party ∈ (lock.ask (.writing party)).claims :=
    (Lock.mem_claims_ask fair).mpr (.inr rfl)
  unfold toWrite
  rw [if_pos isAsked, if_neg fresh, Lock.claims_ask fair, List.length_append,
    List.length_singleton]
  omega

theorem SinkClaim.toWrite_leave {lock : Lock SinkClaim} (fair : lock.WellFormed)
    (asked : .writing party ∈ lock.claims) {host : Nat} {rest : List SinkClaim}
    (claims : lock.claims = .guarding host :: rest) :
    toWrite (lock.leave (.guarding host)) party < toWrite lock party := by
  have stays : .writing party ∈ (lock.leave (.guarding host)).claims :=
    (Lock.mem_claims_leave fair).mpr ⟨asked, by nofun⟩
  unfold toWrite
  rw [if_pos stays, if_pos asked, Lock.claims_leave_first fair claims, claims, List.length_cons]
  exact Nat.add_lt_add_left (Nat.lt_succ_self _) 0

variable [ConfigSink sink]

/-- With such actions neither of two gives way that obstruct each other. -/
theorem State.GoesOn.firm {host : Nat} (goes : state.GoesOn answers action)
    (obstructs : state.Obstructs host party) (move : Move state action next) :
    ¬ action.GivesWay host party := by
  rintro (rfl | gives | gives)
  · exact obstructs.busy (State.delivery?_of_idle goes)
  · cases action with
    | abandon other => cases goes
    | quit => cases gives
    | _ => cases gives
  · cases action with
    | abandon other => cases goes
    | quit =>
      cases gives
      have may := obstructs.may
      cases move with
      | quitIdle present asked =>
        rw [State.mayAct_watcher present, asked] at may
        cases may
      | quitCycle present asked =>
        rw [State.mayAct_watcher present, asked] at may
        cases may
    | _ => cases gives

/-- The first in line has a step to take after which its cycle has ended or has less to do. -/
def State.Advances (state : State sink) (answers : Party → Answers) (party : Party) : Prop :=
  ∃ action next, state.GoesOn answers action ∧ Move state action next ∧
    (next.turn = state.turn.leave party ∨
      next.turn = state.turn ∧ next.toDo party < state.toDo party)

namespace State.Advances

theorem of_moveCycle (action : Action) (after : Stage) {cycle : Cycle}
    (goes : state.GoesOn answers action) (move : Move state action next)
    (running : state.cycles party = some cycle)
    (moved : next.turn = state.turn ∧ next.sinkLock = state.sinkLock ∧ next.cycles =
      Function.update state.cycles party (some { cycle with stage := after }))
    (less : after.left state.settings.secrets.length <
      cycle.stage.left state.settings.secrets.length) : state.Advances answers party := by
  obtain ⟨turn, sinkLock, cycles⟩ := moved
  have fewer := State.toDo_lt_of_moved running move.settings_eq cycles sinkLock less
  exact ⟨action, next, goes, move, .inr ⟨turn, fewer⟩⟩

theorem of_finish (action : Action) {result : Except LoadError Unit}
    (goes : state.GoesOn answers action) (move : Move state action (state.finish party result)) :
    state.Advances answers party :=
  ⟨action, _, goes, move, .inl (by rw [State.finish_eq])⟩

/-- A cycle that has everything asks for the sink, writes, or gets further in the line for it
because a task lets go of it. -/
theorem of_staged (turns : OneTurn state) (guarded : Guarded state) {cycle : Cycle}
    {batch : Staged} (active : state.activeCycle? party = some cycle)
    (stage : cycle.stage = .staged batch) (clear : ∀ host, ¬ state.Obstructs host party) :
    state.Advances answers party := by
  obtain ⟨may, running⟩ := State.activeCycle?_eq_some.mp active
  have held : state.turn.holder = some party :=
    turns.inside party ⟨cycle, running, by rw [stage]; nofun⟩
  have writes (free : state.mayWrite party cycle.delivery = true) :
      state.Advances answers party :=
    ⟨.commit party, _, trivial, .commit active stage free, .inl (by rw [State.finish_eq]; rfl)⟩
  cases delivery : cycle.delivery with
  | direct target => exact writes (by rw [delivery]; rfl)
  | locking =>
    by_cases asked : .writing party ∈ state.sinkLock.claims
    · obtain ⟨first, rest, claims⟩ := List.exists_cons_of_ne_nil (List.ne_nil_of_mem asked)
      have keeps : state.sinkLock.holder = some first := Lock.holder_of_claims guarded.fair claims
      cases first with
      | writing other =>
        have isParty : other = party := Option.some.inj
          ((guarded.holder_of_writing turns (by rw [claims]; exact List.mem_cons_self)).symm.trans
            held)
        rw [isParty] at keeps
        exact writes (by rw [delivery]; exact beq_iff_eq.mpr keeps)
      | guarding host =>
        have idle : state.cycles (.host host) = none := by
          by_contra busy
          refine clear host ⟨fun nothing => busy (Option.map_eq_none_iff.mp nothing), may, ?_,
            .of_holder keeps _, .of_holder held _⟩
          rw [State.delivery?, running, Option.map_some, delivery]
        refine ⟨.unlockSink host, _, idle, .unlockSink ?_ ?_,
          .inr ⟨rfl, Nat.add_lt_add_left (SinkClaim.toWrite_leave guarded.fair asked claims) _⟩⟩
        · rw [claims]
          exact List.mem_cons_self
        · rw [idle]
          nofun
    · refine ⟨.askSink party, _, trivial, .askSink active stage ?_,
        .inr ⟨rfl, Nat.add_lt_add_left (SinkClaim.toWrite_ask guarded.fair asked) _⟩⟩
      rw [delivery]
      exact decide_eq_true asked

theorem of_active (turns : OneTurn state) (guarded : Guarded state) {cycle : Cycle}
    (active : state.activeCycle? party = some cycle) (held : state.turn.holder = some party)
    (clear : ∀ host, ¬ state.Obstructs host party) : state.Advances answers party := by
  have running := State.cycles_of_active active
  cases stage : cycle.stage with
  | queued =>
    refine .of_moveCycle (.enter party) .authenticating trivial (.enter active stage held) running
      ?_ ?_
    · rw [State.moveCycle_eq]
      exact ⟨rfl, rfl, rfl⟩
    · rw [stage]
      exact Nat.lt_succ_self _
  | authenticating =>
    cases answer : (answers party).token with
    | error error =>
      exact .of_finish (.tokenReturned party (.error error)) answer.symm
        (.tokenFailed active stage)
    | ok auth =>
      refine .of_moveCycle (.tokenReturned party (.ok auth)) (.handingOver auth) answer.symm
        (.tokenCame active stage) running ?_ ?_
      · rw [State.moveCycle_eq]
        exact ⟨rfl, rfl, rfl⟩
      · rw [stage]
        exact Nat.lt_succ_self _
  | handingOver auth =>
    refine .of_moveCycle (.tokenTaken party) (.afterToken state.settings.secrets auth.lease)
      trivial (.tokenTaken active stage) running ?_ ?_
    · rw [State.moveCycle_eq]
      exact ⟨rfl, rfl, rfl⟩
    · rw [stage]
      exact Nat.lt_succ_of_le (Nat.le_succ_of_le (Stage.left_afterToken ..))
  | reading gathering =>
    cases answer : (answers party).secret gathering.remaining.length with
    | error error =>
      exact .of_finish (.readReturned party (.error error))
        ⟨cycle, gathering, running, stage, answer.symm⟩ (.secretFailed active stage)
    | ok secret =>
      refine .of_moveCycle (.readReturned party (.ok secret)) (.afterRead gathering secret)
        ⟨cycle, gathering, running, stage, answer.symm⟩ (.secretCame active stage) running
        ?_ ?_
      · rw [State.moveCycle_eq]
        exact ⟨rfl, rfl, rfl⟩
      · rw [stage]
        exact Nat.lt_succ_of_le (Stage.left_afterRead ..)
  | staged batch => exact .of_staged turns guarded active stage clear

/-- The first in line has a step to take unless it is obstructed. -/
theorem of_first {actions : List Action} (turns : OneTurn state) (guarded : Guarded state)
    (coherent : Coherent actions state) (held : state.turn.holder = some party)
    (clear : ∀ host, ¬ state.Obstructs host party) : state.Advances answers party := by
  obtain ⟨cycle, running⟩ := Option.ne_none_iff_exists'.mp (turns.cycle_of_holder held)
  cases may : state.mayAct party with
  | true =>
    exact .of_active turns guarded (State.activeCycle?_eq_some.mpr ⟨may, running⟩) held clear
  | false =>
    -- Only the background task is ever kept from acting, and then it gives its cycle up.
    cases party with
    | host number => cases may
    | watcher =>
      obtain ⟨watcher, attempt, present, phase⟩ := coherent.cycle (by rw [running]; nofun)
      rw [State.mayAct_watcher present] at may
      have move : Move state .quit _ := .quitCycle present (by simpa using may)
        (by rw [phase]; rfl) running
      refine ⟨.quit, _, trivial, move, .inl ?_⟩
      rw [State.setWatcher_eq, State.endCycle_eq]
      rfl

end State.Advances

end

/-! ### Runs -/

section

variable [ConfigSink sink] {settings : LoaderSettings} {sinks : Target → sink}
  {actions : List Action} {state last : State sink} {host : Nat} {party : Party}
  {answers : Party → Answers}

/-- Where nothing is obstructed all cycles end, one after another. -/
theorem State.exists_onward_idle (run : (State.start settings sinks).run? actions = some state)
    (clear : ∀ host party, ¬ state.Obstructs host party) (answers : Party → Answers) :
    ∃ last, State.Onward answers state last ∧ ∀ party, last.cycles party = none := by
  -- On how many are in line, and then on how much the first of them has left to do.
  induction claims : state.turn.claims generalizing actions state with
  | nil =>
    have turns : OneTurn state := oneTurn_of_run run
    refine ⟨state, .refl, fun party => ?_⟩
    by_contra running
    have member := (turns.claimed party).mpr (Option.isSome_iff_ne_none.mpr running)
    rw [claims] at member
    exact List.not_mem_nil member
  | cons party rest shorter =>
    induction amount : state.toDo party using Nat.strongRecOn generalizing actions state with
    | ind amount less =>
      have turns : OneTurn state := oneTurn_of_run run
      have guarded : Guarded state := guarded_of_run run
      have held : state.turn.holder = some party := Lock.holder_of_claims turns.fair claims
      obtain ⟨action, next, goes, move, progress⟩ : state.Advances answers party :=
        .of_first turns guarded (coherent_of_run run) held fun host => clear host party
      obtain ⟨noBegin, noLock, noRequest⟩ := goes.starts_nothing
      have further := State.run?_append_of_move run move
      have clearNext : ∀ host party, ¬ next.Obstructs host party := fun host party obstructs =>
        clear host party (obstructs.of_step turns guarded (.of_move move)
          ((WatchStep.of_move move).mayAct_eq noRequest party) noBegin noLock)
      obtain ⟨last, onward, idle⟩ : ∃ last, State.Onward answers next last ∧
          ∀ party, last.cycles party = none := by
        rcases progress with ended | ⟨same, fewer⟩
        · exact shorter further clearNext (ended ▸ Lock.claims_leave_first turns.fair claims)
        · exact less _ (amount ▸ fewer) further clearNext (same ▸ claims) rfl
      exact ⟨last, .head ⟨action, goes, move.step?_eq⟩ onward, idle⟩

/-- Where something is obstructed it stays so, if no call fails. -/
theorem State.Obstructs.of_onward
    (run : (State.start settings sinks).run? actions = some state)
    (obstructs : state.Obstructs host party) (succeeds : ∀ party, (answers party).Succeed)
    (onward : State.Onward answers state last) : last.Obstructs host party := by
  suffices kept : (∃ actions, (State.start settings sinks).run? actions = some last) ∧
      last.Obstructs host party from kept.2
  induction onward with
  | refl => exact ⟨⟨actions, run⟩, obstructs⟩
  | @tail middle next before goes inductionHypothesis =>
    obtain ⟨action, goes, step⟩ := goes
    obtain ⟨⟨taken, run⟩, obstructs⟩ := inductionHypothesis
    have move : Move middle action next := .of_step? step
    obtain ⟨noBegin, noLock, noRequest⟩ := goes.starts_nothing
    refine ⟨⟨_, State.run?_append_of_move run move⟩, obstructs.step (oneTurn_of_run run)
      (guarded_of_run run) (.of_move move) ((WatchStep.of_move move).mayAct_eq noRequest party)
      ?_ ?_⟩
    · exact goes.firm obstructs move
    · exact goes.fails_eq_false succeeds

/-- The only rings are those of a cycle that waits for the sink with a task that keeps the sink
and has a cycle, and they last until one of the two gives way. All cycles can end, whatever the
calls return, just where none is obstructed. -/
theorem rings_only_behind_guards
    (run : (State.start settings sinks).run? actions = some state) :
    (state.HasRing ↔ ∃ host party, state.RingAt host party) ∧
    (∀ host party, state.RingAt host party →
      (state.mayAct party = true → state.Obstructs host party) ∧
      ∀ rest later, state.run? rest = some later →
        (∀ action ∈ rest, ¬ action.GivesWay host party) →
          later.RingAt host party ∧ later.cycles (.host host) = state.cycles (.host host) ∧
            later.cycles party = state.cycles party) ∧
    ((∀ answers, ∃ last, State.Onward answers state last ∧ ∀ party, last.cycles party = none) ↔
      ∀ host party, ¬ state.Obstructs host party) := by
  have turns : OneTurn state := oneTurn_of_run run
  have guarded : Guarded state := guarded_of_run run
  refine ⟨⟨fun ring => ring.exists_ringAt turns guarded,
    fun ⟨host, party, ring⟩ => ring.hasRing turns guarded⟩, fun host party ring => ⟨?_, ?_⟩, ?_,
    ?_⟩
  · exact fun may => ring.obstructs turns guarded may
  · exact fun rest later further firm => ring.later run further firm
  · intro finish host party obstructs
    obtain ⟨last, onward, idle⟩ := finish fun _ => .fine
    have stuck := obstructs.of_onward run (fun _ => Answers.fine_succeed) onward
    exact stuck.busy (State.delivery?_of_idle (idle _))
  · exact State.exists_onward_idle run

end

/-- A task keeps the sink when the background task begins a cycle. That has everything when the
task begins a cycle of its own, which is to write straight into the sink. -/
def crossing : List Action :=
  [.lockSink 0, .arm, .due, .launch, .enter .watcher,
    .tokenReturned .watcher (.ok ⟨"s", Duration.ofSeconds 60⟩), .tokenTaken .watcher,
    .readReturned .watcher (.ok { payload := [], lease := Duration.ofSeconds 60 }),
    .readReturned .watcher (.ok { payload := [], lease := Duration.ofSeconds 60 }),
    .begin 0 (.direct .shared), .askSink .watcher]

theorem ringAt_of_crossing : ∃ state,
    (State.start twoSecrets fun _ => Values.empty).run? crossing = some state ∧
      state.RingAt 0 .watcher ∧ state.mayAct .watcher = true := by
  obtain ⟨state, run, kept, ⟨cycle, busy⟩, claims, may⟩ : ∃ state,
      (State.start twoSecrets fun _ => Values.empty).run? crossing = some state ∧
        state.sinkLock.holder = some (.guarding 0) ∧
        (∃ cycle, state.cycles (.host 0) = some cycle) ∧
        state.sinkLock.claims = [.guarding 0, .writing .watcher] ∧
        state.mayAct .watcher = true :=
    ⟨_, rfl, rfl, ⟨_, rfl⟩, rfl, rfl⟩
  refine ⟨state, run, ⟨kept, by rw [busy]; nofun, ?_⟩, may⟩
  rw [claims]
  exact List.mem_cons_of_mem _ List.mem_cons_self

/-- The two wait for each other, and neither cycle ends even if no call fails. -/
theorem crossing_never_ends : ∃ state,
    (State.start twoSecrets fun _ => Values.empty).run? crossing = some state ∧ state.HasRing ∧
      ∀ answers : Party → Answers, (∀ party, (answers party).Succeed) →
        ∀ last, State.Onward answers state last →
          last.cycles (.host 0) ≠ none ∧ last.cycles .watcher ≠ none := by
  obtain ⟨state, run, ring, may⟩ := ringAt_of_crossing
  have turns : OneTurn state := oneTurn_of_run run
  have guarded : Guarded state := guarded_of_run run
  refine ⟨state, run, ring.hasRing turns guarded, fun answers succeeds last onward => ?_⟩
  have stuck := (ring.obstructs turns guarded may).of_onward run succeeds onward
  refine ⟨fun idle => stuck.busy (State.delivery?_of_idle idle), fun idle => ?_⟩
  have locks := stuck.locks
  rw [State.delivery?_of_idle idle] at locks
  cases locks

theorem rings_only_behind_guards_of_crossing : ∃ state clear,
    (State.start twoSecrets fun _ => Values.empty).run? crossing = some state ∧
      state.HasRing ∧ state.Obstructs 0 .watcher ∧
      (State.start twoSecrets fun _ => Values.empty).run?
        [.lockSink 0, .begin 1 .locking, .arm, .due, .launch] = some clear ∧
      clear.turn.claims = [.host 1, .watcher] ∧ ¬ clear.HasRing ∧
      ∀ answers, ∃ last, State.Onward answers clear last ∧ ∀ party, last.cycles party = none := by
  obtain ⟨state, run, ring, may⟩ := ringAt_of_crossing
  obtain ⟨clear, clearRun, claims, guards, idle⟩ : ∃ clear,
      (State.start twoSecrets fun _ => Values.empty).run?
        [.lockSink 0, .begin 1 .locking, .arm, .due, .launch] = some clear ∧
      clear.turn.claims = [.host 1, .watcher] ∧ clear.sinkLock.claims = [.guarding 0] ∧
      clear.cycles (.host 0) = none := ⟨_, rfl, rfl, rfl, rfl⟩
  obtain ⟨isRing, lasts, -⟩ := rings_only_behind_guards run
  obtain ⟨isRingClear, -, canEnd⟩ := rings_only_behind_guards clearRun
  refine ⟨state, clear, run, isRing.mpr ⟨0, .watcher, ring⟩, (lasts 0 .watcher ring).1 may,
    clearRun, claims, fun hasRing => ?_, canEnd.mpr fun host party obstructs => ?_⟩
  · obtain ⟨host, party, ring⟩ := isRingClear.mp hasRing
    have writes := ring.writes
    rw [guards] at writes
    cases List.mem_singleton.mp writes
  · have claimed := obstructs.sinkLock.mem_claims
    rw [guards] at claimed
    cases List.mem_singleton.mp claimed
    exact obstructs.busy (State.delivery?_of_idle idle)

end SecretRenewal.Loader
