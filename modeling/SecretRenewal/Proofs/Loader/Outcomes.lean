/-
This file proves that cycles of the program come to an end. Given the answers of the calls, the
outcome of a cycle is settled, and its own steps lead to it: it is answered, it writes or fails,
and the next in line goes on. The only thing that can keep a cycle from its outcome is the shared
sink: a task keeps it locked while a cycle of its own, which writes straight into it, waits in
line behind one that has to lock it.
-/
import SecretRenewal.Proofs.Loader.Commits
import SecretRenewal.Proofs.Loader.Guards

namespace SecretRenewal.Loader

/-! ### Answers and outcomes -/

/-- What the calls of one cycle return. A secret is told by how many are left to read after it. -/
structure Answers where
  token : Except LoadError AuthToken
  secret : Nat → Except LoadError Secret

/-- How a cycle ends that has so many secrets left to read. -/
def Answers.afterReads (answers : Answers) : Nat → Except LoadError Unit
  | 0 => .ok ()
  | left + 1 =>
    match answers.secret left with
    | .ok _ => answers.afterReads left
    | .error error => .error error

/-- How a cycle ends that has got to a stage. -/
def Answers.outcome (answers : Answers) (secrets : List SecretDescriptor) :
    Stage → Except LoadError Unit
  | .queued | .authenticating =>
    match answers.token with
    | .ok _ => answers.afterReads secrets.length
    | .error error => .error error
  | .handingOver _ => answers.afterReads secrets.length
  | .reading gathering => answers.afterReads (gathering.remaining.length + 1)
  | .staged _ => .ok ()

/-! ### Carrying on -/

/-- Whether an action is a step of a cycle of the program, or a task lets go of the shared sink. -/
def Action.carriesOn : Action → Bool
  | .enter (.host _) | .tokenReturned (.host _) _ | .tokenTaken (.host _)
  | .readReturned (.host _) _ | .askSink (.host _) | .commit (.host _) | .unlockSink _ => true
  | _ => false

section

variable {sink : Type}

/-- Some steps of cycles of the program lead from one state to another. -/
def State.Leads [ConfigSink sink] (state last : State sink) : Prop :=
  ∃ actions, state.run? actions = some last ∧ ∀ action ∈ actions, action.carriesOn = true

theorem State.Leads.refl [ConfigSink sink] (state : State sink) : state.Leads state :=
  ⟨[], rfl, fun _ member => absurd member List.not_mem_nil⟩

theorem State.Leads.trans [ConfigSink sink] {state middle last : State sink}
    (first : state.Leads middle) (second : middle.Leads last) : state.Leads last := by
  obtain ⟨actions, run, carries⟩ := first
  obtain ⟨more, further, carriesMore⟩ := second
  refine ⟨actions ++ more, ?_, fun action member => ?_⟩
  · rw [State.run?_append, run]
    exact further
  · rcases List.mem_append.mp member with earlier | later
    · exact carries action earlier
    · exact carriesMore action later

theorem State.Leads.of_move [ConfigSink sink] {state next : State sink} {action : Action}
    (move : Move state action next) (carries : action.carriesOn = true) : state.Leads next := by
  refine ⟨[action], ?_, fun other member => ?_⟩
  · rw [State.run?, move.step?_eq]
    rfl
  · rw [List.mem_singleton.mp member]
    exact carries

/-- Nothing has changed for other parties: their cycles are where they were, and the last results
are those that they were. -/
structure SameForOthers (party : Party) (state next : State sink) : Prop where
  cycles : ∀ other ≠ party, next.cycles other = state.cycles other
  results : ∀ other ≠ party, next.lastResult? other = state.lastResult? other

namespace SameForOthers

variable {party : Party} {state middle next : State sink}

theorem refl (party : Party) (state : State sink) : SameForOthers party state state :=
  ⟨fun _ _ => rfl, fun _ _ => rfl⟩

theorem trans (first : SameForOthers party state middle)
    (second : SameForOthers party middle next) : SameForOthers party state next where
  cycles other different := (second.cycles other different).trans (first.cycles other different)
  results other different :=
    (second.results other different).trans (first.results other different)

/-- Only the end of a cycle changes a last result. -/
theorem of_history (more : List (Nat × Event))
    (cycles : ∀ other ≠ party, next.cycles other = state.cycles other)
    (history : next.history = more ++ state.history)
    (silent : ∀ entry ∈ more, ∀ other ≠ party, ∀ result, entry.2 ≠ .finished other result) :
    SameForOthers party state next := by
  refine ⟨cycles, fun other different => ?_⟩
  unfold State.lastResult?
  rw [history, List.findSome?_append, List.findSome?_eq_none_iff.mpr, Option.none_or]
  intro entry member
  obtain ⟨time, event⟩ := entry
  cases event with
  | finished who result =>
    exact if_neg fun same => silent _ member other different result (by rw [same])
  | _ => rfl

theorem note (same : SameForOthers party state next) {event : Event}
    (silent : ∀ other result, event ≠ .finished other result) :
    SameForOthers party state (next.note event) := by
  refine same.trans (of_history [(next.now, event)] (fun _ _ => rfl) rfl ?_)
  intro entry member other _ result
  rw [List.mem_singleton.mp member]
  exact silent other result

theorem moveCycle (party : Party) (state : State sink) (cycle : Cycle) (stage : Stage) :
    SameForOthers party state (state.moveCycle party cycle stage) := by
  rw [State.moveCycle_eq]
  refine of_history (state.openings party stage)
    (fun other different => Function.update_of_ne different ..) rfl ?_
  intro entry member other _ result
  cases stage with
  | reading gathering =>
    rw [List.mem_singleton.mp member]
    nofun
  | _ => cases member

theorem finish (party : Party) (state : State sink) (result : Except LoadError Unit) :
    SameForOthers party state (state.finish party result) := by
  rw [State.finish_eq]
  refine of_history (state.tellings (state.watcherAfter party result) ++
    [(state.now, .finished party result)])
    (fun other different => Function.update_of_ne different ..) (List.append_cons ..) ?_
  intro entry member other different found
  rcases List.mem_append.mp member with told | last
  · unfold State.tellings at told
    split at told
    · cases told
    · obtain ⟨watcher, -, rfl⟩ := List.mem_map.mp told
      nofun
  · rw [List.mem_singleton.mp last]
    exact fun same => different (Event.finished.inj same).1.symm

theorem commit [ConfigSink sink] (party : Party) (state : State sink) (target : Target)
    (batch : Staged) : SameForOthers party state (state.commit party target batch) := by
  have written : SameForOthers party state (state.write target batch.entries) := by
    refine of_history _ (fun _ _ => rfl) rfl ?_
    intro entry member other _ result
    obtain ⟨value, -, rfl⟩ := List.mem_map.mp member
    nofun
  have counted : SameForOthers party state
      { state.write target batch.entries with
        interval := some batch.interval
        lastRefresh := some state.now
        commits := state.commits + 1 } := ⟨written.cycles, written.results⟩
  exact counted.note (by nofun)

end SameForOthers

variable [ConfigSink sink]

/-- The cycle of a task is carried on until it ends with a result. -/
structure Carried (host : Nat) (result : Except LoadError Unit) (state last : State sink) :
    Prop where
  leads : state.Leads last
  ended : last.cycles (.host host) = none
  result : last.lastResult? (.host host) = some result
  turn : last.turn = state.turn.leave (.host host)
  others : SameForOthers (.host host) state last

namespace Carried

variable {host : Nat} {result : Except LoadError Unit} {state middle last : State sink}

theorem trans (leads : state.Leads middle) (turn : middle.turn = state.turn)
    (others : SameForOthers (.host host) state middle) (rest : Carried host result middle last) :
    Carried host result state last where
  leads := leads.trans rest.leads
  ended := rest.ended
  result := rest.result
  turn := by rw [rest.turn, turn]
  others := others.trans rest.others

theorem of_finish {action : Action}
    (move : Move state action (state.finish (.host host) result))
    (carries : action.carriesOn = true) :
    Carried host result state (state.finish (.host host) result) where
  leads := .of_move move carries
  ended := State.cycles_finish_self ..
  result := State.lastResult?_finish ..
  turn := by rw [State.finish_eq]
  others := .finish ..

/-- A cycle that may write does so. -/
theorem of_commit {cycle : Cycle} {batch : Staged}
    (running : state.cycles (.host host) = some cycle) (stage : cycle.stage = .staged batch)
    (free : state.mayWrite (.host host) cycle.delivery = true) :
    ∃ last, Carried host (.ok ()) state last := by
  have active : state.activeCycle? (.host host) = some cycle :=
    State.activeCycle?_eq_some.mpr ⟨rfl, running⟩
  refine ⟨_, .of_move (.commit active stage free) rfl, State.cycles_finish_self ..,
    State.lastResult?_finish .., ?_, (SameForOthers.commit ..).trans (.finish ..)⟩
  rw [State.finish_eq]
  rfl

end Carried

/-! ### Getting at the shared sink -/

/-- Tasks that have no cycle that writes straight into the shared sink let go of it, until the
cycle that wants to write is at the front. -/
theorem State.leads_to_sink (state : State sink) {party : Party} {ahead behind : List SinkClaim}
    {lock : Lock SinkClaim} (fair : lock.WellFormed)
    (claims : lock.claims = ahead ++ .writing party :: behind)
    (guards : ∀ claim ∈ ahead, ∃ host, claim = .guarding host ∧
      ∀ cycle, state.cycles (.host host) = some cycle → cycle.delivery ≠ .direct .shared) :
    ∃ after : Lock SinkClaim, after.holder = some (.writing party) ∧
      { state with sinkLock := lock }.Leads { state with sinkLock := after } := by
  induction ahead generalizing lock with
  | nil => exact ⟨lock, Lock.holder_of_claims fair claims, .refl _⟩
  | cons first rest inductionHypothesis =>
    obtain ⟨host, rfl, unused⟩ := guards first List.mem_cons_self
    have claimed : SinkClaim.guarding host ∈ lock.claims := by
      rw [claims]
      exact List.mem_cons_self
    have letsGo : Move { state with sinkLock := lock } (.unlockSink host)
        { state with sinkLock := lock.leave (.guarding host) } := .unlockSink claimed unused
    obtain ⟨after, held, leads⟩ := inductionHypothesis (fair.leave _)
      (Lock.claims_leave_first fair claims) fun claim member =>
        guards claim (List.mem_cons_of_mem _ member)
    exact ⟨after, held, (State.Leads.of_move letsGo rfl).trans leads⟩

/-- A cycle of the program that is going to write, and the tasks that keep the sink to themselves
while it waits. -/
theorem State.leads_to_write {state : State sink} {host : Nat} {cycle : Cycle} {batch : Staged}
    (turns : OneTurn state) (guarded : Guarded state)
    (running : state.cycles (.host host) = some cycle) (locking : cycle.delivery = .locking)
    (stage : cycle.stage = .staged batch)
    (unused : ∀ other kept, state.cycles other = some kept → kept.delivery ≠ .direct .shared) :
    ∃ after : Lock SinkClaim, after.holder = some (.writing (.host host)) ∧
      state.Leads { state with sinkLock := after } := by
  have isInside : state.IsInside (.host host) := ⟨cycle, running, by rw [stage]; nofun⟩
  have active : state.activeCycle? (.host host) = some cycle :=
    State.activeCycle?_eq_some.mpr ⟨rfl, running⟩
  -- First the cycle gets into the line for the sink, unless it is there already.
  obtain ⟨lock, fair, claimed, others, asks⟩ : ∃ lock : Lock SinkClaim, lock.WellFormed ∧
      .writing (.host host) ∈ lock.claims ∧
      (∀ other, .writing other ∈ lock.claims → other = .host host) ∧
      state.Leads { state with sinkLock := lock } := by
    by_cases claimed : .writing (.host host) ∈ state.sinkLock.claims
    · exact ⟨state.sinkLock, guarded.fair, claimed,
        fun other => guarded.writing_unique turns isInside, .refl state⟩
    · refine ⟨state.sinkLock.ask (.writing (.host host)), guarded.fair.ask claimed, ?_, ?_, ?_⟩
      · exact (Lock.mem_claims_ask guarded.fair).mpr (.inr rfl)
      · intro other member
        rcases (Lock.mem_claims_ask guarded.fair).mp member with earlier | same
        · exact guarded.writing_unique turns isInside earlier
        · exact SinkClaim.writing.inj same
      · refine .of_move (.askSink active stage ?_) rfl
        rw [locking]
        exact decide_eq_true claimed
  obtain ⟨ahead, behind, split⟩ := List.append_of_mem claimed
  have distinct : ∀ claim ∈ ahead, claim ≠ .writing (.host host) := by
    have nodup := fair.2
    rw [split, List.nodup_append] at nodup
    exact fun claim member => nodup.2.2 claim member _ List.mem_cons_self
  -- Whatever is in front of it there is the claim of a task that can let go.
  obtain ⟨after, held, leads⟩ := state.leads_to_sink fair split
    fun claim member => by
      cases claim with
      | guarding number => exact ⟨number, rfl, unused _⟩
      | writing other =>
        have isHost := others other (by rw [split]; exact List.mem_append_left _ member)
        exact absurd (congrArg SinkClaim.writing isHost) (distinct _ member)
  exact ⟨after, held, asks.trans leads⟩

/-! ### From stage to stage to the outcome -/

/-- A cycle of a task that nothing keeps from writing once it has everything. -/
structure Able (host : Nat) (cycle : Cycle) (state : State sink) : Prop where
  turns : OneTurn state
  guarded : Guarded state
  running : state.cycles (.host host) = some cycle
  unused : cycle.delivery = .locking →
    ∀ other kept, state.cycles other = some kept → kept.delivery ≠ .direct .shared

namespace Able

variable {host : Nat} {cycle : Cycle} {state next : State sink}

omit [ConfigSink sink] in
theorem active (able : Able host cycle state) :
    state.activeCycle? (.host host) = some cycle :=
  State.activeCycle?_eq_some.mpr ⟨rfl, able.running⟩

/-- A cycle that moves on stays able to write. -/
theorem of_move (able : Able host cycle state) {action : Action}
    (move : Move state action next) (others : SameForOthers (.host host) state next)
    {stage : Stage} (moved : next.cycles (.host host) = some { cycle with stage }) :
    Able host { cycle with stage } next where
  turns := able.turns.step (.of_move move)
  guarded := able.guarded.step (.of_move move)
  running := moved
  unused locking other kept runs := by
    by_cases same : other = .host host
    · rw [same, moved] at runs
      cases runs
      rw [locking]
      nofun
    · exact able.unused locking other kept ((others.cycles other same).symm.trans runs)

theorem carried_of_staged (able : Able host cycle state) {batch : Staged}
    (stage : cycle.stage = .staged batch) : ∃ last, Carried host (.ok ()) state last := by
  cases delivery : cycle.delivery with
  | direct target => exact Carried.of_commit able.running stage (by rw [delivery]; rfl)
  | locking =>
    obtain ⟨after, held, leads⟩ := State.leads_to_write able.turns able.guarded able.running
      delivery stage (able.unused delivery)
    have free : { state with sinkLock := after }.mayWrite (.host host) cycle.delivery = true := by
      rw [delivery]
      exact beq_iff_eq.mpr held
    obtain ⟨last, carried⟩ : ∃ last, Carried host (.ok ()) { state with sinkLock := after } last :=
      Carried.of_commit able.running stage free
    exact ⟨last, carried.trans leads rfl ⟨fun _ _ => rfl, fun _ _ => rfl⟩⟩

/-- What is left to do after a step leads to the outcome from before it too. -/
theorem carried_of_move (able : Able host cycle state) (stage : Stage) {action : Action}
    (move : Move state action next) (carries : action.carriesOn = true)
    (turn : next.turn = state.turn) (others : SameForOthers (.host host) state next)
    (moved : next.cycles (.host host) = some { cycle with stage })
    {result : Except LoadError Unit}
    (rest : Able host { cycle with stage } next → ∃ last, Carried host result next last) :
    ∃ last, Carried host result state last := by
  obtain ⟨last, carried⟩ := rest (able.of_move move others moved)
  exact ⟨last, carried.trans (.of_move move carries) turn others⟩

/-- A secret is read, and the cycle goes on from there. -/
theorem carried_of_secret (able : Able host cycle state) {gathering : Gathering}
    (stage : cycle.stage = .reading gathering) (value : Secret) {result : Except LoadError Unit}
    (rest : ∀ next : State sink, Able host { cycle with stage := .afterRead gathering value } next →
      ∃ last, Carried host result next last) :
    ∃ last, Carried host result state last := by
  have move : Move state (.readReturned (.host host) (.ok value)) _ :=
    .secretCame able.active stage
  refine able.carried_of_move (.afterRead gathering value) move rfl ?_ ?_ ?_ (rest _)
  · rw [State.moveCycle_eq]
    rfl
  · exact ((SameForOthers.refl _ state).note (by nofun)).trans (.moveCycle ..)
  · rw [State.moveCycle_eq]
    exact Function.update_self ..

/-- A cycle that reads goes on to the last secret, or to the first that fails. -/
theorem carried_of_reading (able : Able host cycle state) (answers : Answers)
    {gathering : Gathering} (stage : cycle.stage = .reading gathering) :
    ∃ last, Carried host (answers.afterReads (gathering.remaining.length + 1)) state last := by
  induction left : gathering.remaining generalizing state cycle gathering with
  | nil =>
    unfold Answers.afterReads
    cases answers.secret 0 with
    | error error => exact ⟨_, Carried.of_finish (.secretFailed able.active stage) rfl⟩
    | ok value =>
      obtain ⟨batch, isStaged⟩ : ∃ batch, Stage.afterRead gathering value = .staged batch := by
        unfold Stage.afterRead
        rw [left]
        exact ⟨_, rfl⟩
      exact able.carried_of_secret stage value fun next able => able.carried_of_staged isStaged
  | cons current rest inductionHypothesis =>
    unfold Answers.afterReads
    cases answers.secret (rest.length + 1) with
    | error error => exact ⟨_, Carried.of_finish (.secretFailed able.active stage) rfl⟩
    | ok value =>
      obtain ⟨further, reads, isRest⟩ : ∃ further,
          Stage.afterRead gathering value = .reading further ∧ further.remaining = rest := by
        unfold Stage.afterRead
        rw [left]
        exact ⟨_, rfl, rfl⟩
      exact able.carried_of_secret stage value fun next able =>
        inductionHypothesis able reads isRest

/-- A cycle that begins to read reads as many secrets as there are. -/
theorem carried_of_first {secrets : List SecretDescriptor} {tokenLease : Duration}
    (able : Able host { cycle with stage := .afterToken secrets tokenLease } state)
    (answers : Answers) : ∃ last, Carried host (answers.afterReads secrets.length) state last := by
  cases secrets with
  | nil => exact able.carried_of_staged rfl
  | cons current rest => exact able.carried_of_reading answers rfl

theorem carried_of_handingOver (able : Able host cycle state) (answers : Answers)
    {auth : AuthToken} (stage : cycle.stage = .handingOver auth) :
    ∃ last, Carried host (answers.afterReads state.settings.secrets.length) state last := by
  have move : Move state (.tokenTaken (.host host)) _ := .tokenTaken able.active stage
  refine able.carried_of_move (.afterToken state.settings.secrets auth.lease) move rfl ?_ ?_ ?_
    fun able => ?_
  · rw [State.moveCycle_eq]
  · have taken : SameForOthers (.host host) state { state with storeToken := some auth.token } :=
      ⟨fun _ _ => rfl, fun _ _ => rfl⟩
    exact taken.trans (.moveCycle ..)
  · rw [State.moveCycle_eq]
    exact Function.update_self ..
  · exact able.carried_of_first answers

theorem carried_of_authenticating (able : Able host cycle state) (answers : Answers)
    (stage : cycle.stage = .authenticating) :
    ∃ last, Carried host (answers.outcome state.settings.secrets .authenticating) state last := by
  unfold Answers.outcome
  cases answers.token with
  | error error => exact ⟨_, Carried.of_finish (.tokenFailed able.active stage) rfl⟩
  | ok auth =>
    have move : Move state (.tokenReturned (.host host) (.ok auth)) _ :=
      .tokenCame able.active stage
    have same := move.settings_eq
    refine able.carried_of_move (.handingOver auth) move rfl ?_ ?_ ?_ fun able => ?_
    · rw [State.moveCycle_eq]
      rfl
    · exact ((SameForOthers.moveCycle ..).note (by nofun)).note (by nofun)
    · rw [State.moveCycle_eq]
      exact Function.update_self ..
    · exact same ▸ able.carried_of_handingOver answers rfl

/-- A cycle of a task whose turn it is, or that is inside, gets to its outcome. -/
theorem carried (able : Able host cycle state) (answers : Answers)
    (held : state.turn.holder = some (.host host)) :
    ∃ last, Carried host (answers.outcome state.settings.secrets cycle.stage) state last := by
  cases stage : cycle.stage with
  | queued =>
    have move : Move state (.enter (.host host)) _ := .enter able.active stage held
    have same := move.settings_eq
    refine able.carried_of_move .authenticating move rfl ?_ ?_ ?_ fun able => ?_
    · rw [State.moveCycle_eq]
      rfl
    · exact (SameForOthers.moveCycle ..).note (by nofun)
    · rw [State.moveCycle_eq]
      exact Function.update_self ..
    · exact same ▸ able.carried_of_authenticating answers rfl
  | authenticating => exact able.carried_of_authenticating answers stage
  | handingOver auth => exact able.carried_of_handingOver answers stage
  | reading gathering => exact able.carried_of_reading answers stage
  | staged batch => exact able.carried_of_staged stage

end Able

/-! ### One after another -/

/-- Whether a cycle can end before another: not if it has to lock the shared sink and the task of
the other keeps the sink locked for it. -/
def State.MayPrecede (state : State sink) (first second : Party) : Prop :=
  ∀ earlier later, state.cycles first = some earlier → state.cycles second = some later →
    earlier.delivery = .locking → later.delivery ≠ .direct .shared

/-- The cycles of some parties have ended with the outcomes that their answers lead to, and nobody
else's cycle has moved. -/
structure Settled (answers : Nat → Answers) (parties : List Party) (state last : State sink) :
    Prop where
  leads : state.Leads last
  outcomes : ∀ host, .host host ∈ parties → ∃ cycle, state.cycles (.host host) = some cycle ∧
    last.cycles (.host host) = none ∧ last.lastResult? (.host host) =
      some ((answers host).outcome state.settings.secrets cycle.stage)
  others : ∀ party ∉ parties, last.cycles party = state.cycles party ∧
    last.lastResult? party = state.lastResult? party

theorem State.Leads.sound {state last : State sink} (leads : state.Leads last)
    (turns : OneTurn state) (guarded : Guarded state) :
    OneTurn last ∧ Guarded last ∧ last.settings = state.settings := by
  obtain ⟨actions, run, -⟩ := leads
  refine ⟨?_, ?_, State.settings_of_run run⟩
  · exact State.run_induction (fun _ state => OneTurn state) turns
      (fun _ turns move => turns.step (.of_move move)) run
  · exact State.run_induction (fun _ state => Guarded state) guarded
      (fun _ guarded move => guarded.step (.of_move move)) run

omit [ConfigSink sink] in
/-- The first in line is able to write if it can end before the others. -/
theorem Able.of_first {state : State sink} {host : Nat} {cycle : Cycle} {rest : List Party}
    (turns : OneTurn state) (guarded : Guarded state)
    (running : state.cycles (.host host) = some cycle)
    (claims : state.turn.claims = .host host :: rest)
    (precedes : ∀ other ∈ rest, state.MayPrecede (.host host) other) : Able host cycle state := by
  refine ⟨turns, guarded, running, fun locking other kept runs => ?_⟩
  have member : other ∈ .host host :: rest := by
    rw [← claims, turns.claimed, runs]
    rfl
  rcases List.mem_cons.mp member with rfl | later
  · rw [running] at runs
    cases runs
    rw [locking]
    nofun
  · exact precedes other later cycle kept running runs locking

/-- When one cycle has ended, the rest goes on from there. -/
theorem Settled.cons {answers : Nat → Answers} {host : Nat} {cycle : Cycle} {rest : List Party}
    {state middle last : State sink} (running : state.cycles (.host host) = some cycle)
    (carried : Carried host ((answers host).outcome state.settings.secrets cycle.stage) state
      middle)
    (settings : middle.settings = state.settings) (apart : .host host ∉ rest)
    (settled : Settled answers rest middle last) :
    Settled answers (.host host :: rest) state last where
  leads := carried.leads.trans settled.leads
  outcomes other member := by
    rcases List.mem_cons.mp member with isFirst | isLater
    · cases isFirst
      obtain ⟨ended, result⟩ := settled.others _ apart
      exact ⟨cycle, running, ended.trans carried.ended, result.trans carried.result⟩
    · have isOther : Party.host other ≠ .host host := fun same => apart (same ▸ isLater)
      obtain ⟨found, runs, ended, result⟩ := settled.outcomes other isLater
      rw [carried.others.cycles _ isOther] at runs
      rw [settings] at result
      exact ⟨found, runs, ended, result⟩
  others other outside := by
    have isOther : other ≠ .host host := fun same => outside (same ▸ List.mem_cons_self)
    obtain ⟨cycles, result⟩ := settled.others other fun member =>
      outside (List.mem_cons_of_mem _ member)
    exact ⟨cycles.trans (carried.others.cycles other isOther),
      result.trans (carried.others.results other isOther)⟩

end

end SecretRenewal.Loader
