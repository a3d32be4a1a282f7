/-
This file proves that a background task that is over is out of the way. Whatever the program does
from then on happens just as it would to a loader that has no background task: the same steps can be
taken, and they lead to the same. So nothing but tasks of the program can keep a cycle from its
outcome. Each cycle gets to its own if the others make way.
-/
import SecretRenewal.Proofs.Loader.Background
import SecretRenewal.Proofs.Loader.Outcomes

namespace SecretRenewal.Loader

/-- Whether an action has to do with the background task, be it a step of the task or a talk with
it. -/
def Action.concernsTask : Action → Bool
  | .requestStop | .beginWait _ | .finishWait _ | .dropWait _ => true
  | action => action.isBackground

theorem Action.isBackground_of_party {action : Action}
    (own : action.party? = some .watcher) : action.isBackground = true := by
  unfold isBackground
  split
  · rfl
  · rfl
  · rfl
  · rfl
  · rw [own]
    rfl

/-- What does not concern the background task is no step of it. -/
theorem Action.foreground_of_apart {action : Action} (apart : action.concernsTask = false) :
    action.isBackground = false := by
  unfold concernsTask at apart
  split at apart
  · cases apart
  · cases apart
  · cases apart
  · cases apart
  · exact apart

/-- A failure that the background task goes by is one of its own cycle. -/
theorem Action.party?_of_failure {action : Action} {error : LoadError}
    (fails : action.failure? = some error) : action.party? = some .watcher := by
  unfold failure? at fails
  split at fails
  · rfl
  · rfl
  · cases fails

theorem Action.party?_of_breakage {action : Action} {reason : String}
    (breaks : action.breakage? = some reason) : action.party? = some .watcher := by
  unfold breakage? at breaks
  split at breaks
  · rfl
  · rfl
  · cases breaks

variable {sink : Type}

/-- Steps of others leave the background task to what it is doing. -/
theorem WatchStep.sameTask_of_foreground {state next : State sink} {action : Action}
    (watch : WatchStep state action next) (foreground : action.isBackground = false) :
    Option.Rel (SameTask action) state.watcher next.watcher := by
  cases watch with
  | apart noCommit task now cycle log => exact task
  | arm present phase isAfter task now cycle log => cases foreground
  | rearm present phase known unheard isAfter task now cycle log => cases foreground
  | due present phase heard reached isAfter task now cycle log => cases foreground
  | resume present phase reached isAfter task now cycle log => cases foreground
  | failed noCommit running task now cycle log cause =>
    rw [Action.isBackground_of_party (Action.party?_of_failure cause)] at foreground
    cases foreground
  | committed target batch running task now cycle log => cases foreground
  | brokeDown noCommit running task now cycle log cause =>
    rw [Action.isBackground_of_party (Action.party?_of_breakage cause)] at foreground
    cases foreground
  | quit present asked running isAfter task now cycle gaveUp log => cases foreground
  | advance later quiet timely task now cycle log =>
    rw [task]
    cases state.watcher with
    | none => exact .none
    | some watcher => exact .some ⟨rfl, rfl, id, .inl⟩

namespace State

/-! ### A loader without its background task -/

/-- A loader as it would be without its background task. -/
def alone (state : State sink) : State sink := { state with watcher := none }

/-- There is a background task, and it is over. -/
structure IsRetired (state : State sink) : Prop where
  idle : state.cycles .watcher = none
  task : ∃ watcher, state.watcher = some watcher ∧ watcher.phase.isRunning = false

variable {state : State sink} {host : Nat}

variable [ConfigSink sink]

omit [ConfigSink sink] in
/-- A background task that is over stays so. -/
theorem IsRetired.step (retired : state.IsRetired) {action : Action} {next : State sink}
    (watch : WatchStep state action next) (apart : action.concernsTask = false) :
    next.IsRetired := by
  obtain ⟨watcher, present, isOver⟩ := retired.task
  obtain ⟨after, isAfter, same⟩ := SameTask.exists_after
    (watch.sameTask_of_foreground (Action.foreground_of_apart apart)) present
  refine ⟨?_, after, isAfter, by rw [same.phase, isOver]⟩
  cases watch with
  | apart noCommit task now cycle log =>
    by_contra began
    rcases cycle began with running | ⟨other, attempt, isOther, phase⟩
    · exact running retired.idle
    · rw [present] at isOther
      cases isOther
      rw [phase] at isOver
      cases isOver
  | advance later quiet timely task now cycle log => rw [cycle, retired.idle]
  | failed noCommit running => exact absurd retired.idle running
  | committed target batch running => exact absurd retired.idle running
  | brokeDown noCommit running => exact absurd retired.idle running
  | arm | rearm | due | resume | quit => cases apart

/-- One state leads to another in which the cycle of a task is favoured: cycles of the program
carry on, tasks let go of the shared sink, and other tasks may give up their cycles. -/
def MakesWay (state : State sink) (host : Nat) (last : State sink) : Prop :=
  ∃ actions, state.run? actions = some last ∧ ∀ action ∈ actions,
    action.carriesOn = true ∨ ∃ other ≠ host, action = .abandon other

theorem MakesWay.trans {middle last : State sink} (first : state.MakesWay host middle)
    (second : middle.MakesWay host last) : state.MakesWay host last := by
  obtain ⟨actions, run, favour⟩ := first
  obtain ⟨more, further, favourMore⟩ := second
  refine ⟨actions ++ more, by rw [run?_append, run]; exact further, fun action member => ?_⟩
  rcases List.mem_append.mp member with earlier | later
  · exact favour action earlier
  · exact favourMore action later

end State

end SecretRenewal.Loader
