/-
This file says which branch the background task takes where it waits. A request to stop comes first
at every such place, whatever else is ready; only without one is there any other branch. The one
place where requests are not looked at is before the timer is set.
-/
import SecretRenewal.Loader.Poll

namespace SecretRenewal.Loader

/-! ### Branches in order -/

section

variable {branch : Type}

/-- A branch that is ready is taken, whatever is behind it. -/
theorem select_cons_of_ready (taken : branch) (rest : List (Bool × branch)) :
    select ((true, taken) :: rest) = some taken := rfl

/-- A branch that is not ready is passed over. -/
theorem select_cons_of_waiting (passed : branch) (rest : List (Bool × branch)) :
    select ((false, passed) :: rest) = select rest := rfl

end

namespace Watcher

variable {watcher : Watcher} {alarm : Alarm} {commits now : Nat}

theorem workBranch?_of_asked (asked : watcher.stopRequested = true) :
    watcher.workBranch? = some .stop := by
  unfold workBranch?
  rw [asked]
  exact select_cons_of_ready ..

theorem workBranch?_of_free (free : watcher.stopRequested = false) :
    watcher.workBranch? = some .work := by
  unfold workBranch?
  rw [free]
  exact select_cons_of_waiting ..

/-- Work goes on without a request, and only then. -/
theorem workBranch?_eq_work : watcher.workBranch? = some .work ↔ watcher.stopRequested = false := by
  cases asked : watcher.stopRequested with
  | false => simp [workBranch?_of_free asked]
  | true => simp [workBranch?_of_asked asked]

theorem workBranch?_eq_stop : watcher.workBranch? = some .stop ↔ watcher.stopRequested = true := by
  cases asked : watcher.stopRequested with
  | false => simp [workBranch?_of_free asked]
  | true => simp [workBranch?_of_asked asked]

/-- However overdue the timer is and whatever has been committed, a request comes first. -/
theorem waitBranch?_of_asked (asked : watcher.stopRequested = true) :
    watcher.waitBranch? alarm commits now = some .stop := by
  unfold waitBranch?
  rw [asked]
  exact select_cons_of_ready ..

/-- Without a request a commit comes before the timer. -/
theorem waitBranch?_of_free (free : watcher.stopRequested = false) :
    watcher.waitBranch? alarm commits now =
      if alarm.seen ≠ commits then some .interval
      else if alarm.deadline ≤ now then some .timer else none := by
  unfold waitBranch?
  rw [free, select_cons_of_waiting]
  by_cases heard : alarm.seen = commits
  · have same : (alarm.seen != commits) = false := by simp [heard]
    rw [same, select_cons_of_waiting, if_neg (not_not_intro heard)]
    by_cases reached : alarm.deadline ≤ now
    · rw [if_pos reached, decide_eq_true reached]
      exact select_cons_of_ready ..
    · rw [if_neg reached, decide_eq_false reached]
      exact select_cons_of_waiting ..
  · have differs : (alarm.seen != commits) = true := by simp [heard]
    rw [differs, if_pos heard]
    exact select_cons_of_ready ..

theorem waitBranch?_eq_stop :
    watcher.waitBranch? alarm commits now = some .stop ↔ watcher.stopRequested = true := by
  cases asked : watcher.stopRequested with
  | false => grind [waitBranch?_of_free asked]
  | true => simp [waitBranch?_of_asked asked]

theorem waitBranch?_eq_interval : watcher.waitBranch? alarm commits now = some .interval ↔
    watcher.stopRequested = false ∧ alarm.seen ≠ commits := by
  cases asked : watcher.stopRequested with
  | false => grind [waitBranch?_of_free asked]
  | true => simp [waitBranch?_of_asked asked]

/-- The timer counts only if there is no request and nothing has committed since it was set. -/
theorem waitBranch?_eq_timer : watcher.waitBranch? alarm commits now = some .timer ↔
    watcher.stopRequested = false ∧ alarm.seen = commits ∧ alarm.deadline ≤ now := by
  cases asked : watcher.stopRequested with
  | false => grind [waitBranch?_of_free asked]
  | true => simp [waitBranch?_of_asked asked]

end Watcher

/-! ### Coming to a stop -/

/-- Whether the background task looks at requests to stop. -/
def Phase.heedsRequests : Phase → Bool
  | .waiting _ | .refreshing _ | .pausing _ _ => true
  | _ => false

theorem Phase.isRunning_of_heedsRequests {phase : Phase} (heeds : phase.heedsRequests = true) :
    phase.isRunning = true := by
  cases phase with
  | waiting | refreshing | pausing => rfl
  | starting | ended | brokeDown => cases heeds

/-- A task comes to its end exactly if it was asked to and is where it looks for a request. -/
theorem Watcher.comesToStop_iff {watcher : Watcher} {commits now : Nat} :
    watcher.comesToStop commits now = true ↔
      watcher.stopRequested = true ∧ watcher.phase.heedsRequests = true := by
  unfold Watcher.comesToStop Phase.heedsRequests
  cases watcher.phase with
  | waiting alarm => simp [waitBranch?_eq_stop]
  | refreshing attempt => simp [workBranch?_eq_stop]
  | pausing attempt wake => simp [workBranch?_eq_stop]
  | starting | ended | brokeDown => simp

/-! ### Who may act -/

namespace State

variable {sink : Type} {state : State sink}

/-- A party moves its own cycle, and only if it may act. -/
theorem activeCycle?_eq_some {party : Party} {cycle : Cycle} :
    state.activeCycle? party = some cycle ↔
      state.mayAct party = true ∧ state.cycles party = some cycle := by
  unfold activeCycle?
  split <;> simp_all

theorem cycles_of_active {party : Party} {cycle : Cycle}
    (active : state.activeCycle? party = some cycle) : state.cycles party = some cycle :=
  (activeCycle?_eq_some.mp active).2

/-- The background task may act until it is asked to stop. -/
theorem mayAct_watcher {watcher : Watcher} (present : state.watcher = some watcher) :
    state.mayAct .watcher = !watcher.stopRequested := by
  unfold mayAct
  rw [present, Option.any_some, Bool.eq_iff_iff, beq_iff_eq, Watcher.workBranch?_eq_work]
  simp

theorem activeWatcher?_eq_some {watcher : Watcher} :
    state.activeWatcher? = some watcher ↔
      state.watcher = some watcher ∧ watcher.stopRequested = false := by
  unfold activeWatcher?
  cases present : state.watcher with
  | none => simp
  | some other =>
    rw [mayAct_watcher present]
    cases asked : other.stopRequested with
    | false => simp; rintro rfl; exact asked
    | true => simp; rintro rfl; exact asked

theorem watcher_of_active {watcher : Watcher} (active : state.activeWatcher? = some watcher) :
    state.watcher = some watcher :=
  (activeWatcher?_eq_some.mp active).1

/-! ### The next step of a poll -/

variable {watcher : Watcher} (offered : List Action)

end State

end SecretRenewal.Loader
