/-
This file proves what a sink holds once a cycle has written into it. A value that is set later
takes the place of an earlier one under the same key, so under each key there is the value of the
last secret that gives one for it, and what there was where no secret does. Within one secret no
two names come to the same key, so it makes no difference in which order its values are set.
-/
import SecretRenewal.Proofs.Loader.Returns
import Mathlib.Data.List.Forall2
import Mathlib.Data.List.Nodup

namespace SecretRenewal

/-! ### Sinks that hold values under keys -/

/-- A sink that can be asked for the value that was set last under a key. -/
class MapSink (sink : Type) [ConfigSink sink] where
  find? : sink → String → Option Json
  find?_set : ∀ (contents : sink) (key other : String) (given : Json),
    find? (ConfigSink.set contents key given) other =
      if key = other then some given else find? contents other

export MapSink (find? find?_set)

instance : MapSink Values where
  find? := Values.get?
  find?_set := Values.get?_set

instance : MapSink (Std.HashMap String Json) where
  find? table key := table[key]?
  find?_set table key other given := by
    show (table.insert key given)[other]? = _
    rw [Std.HashMap.getElem?_insert]
    simp only [beq_iff_eq]

instance : MapSink (Std.TreeMap String Json) where
  find? tree key := tree[key]?
  find?_set tree key other given := by
    show (tree.insert key given)[other]? = _
    rw [Std.TreeMap.getElem?_insert]
    simp only [Std.compare_eq_iff_eq]

section

variable {sink : Type} [ConfigSink sink] [MapSink sink]

/-- A key that is not set keeps its value. -/
theorem find?_setAll_of_unset {key : String} {entries : List (String × Json)}
    (unset : key ∉ entries.map Prod.fst) (contents : sink) :
    find? (ConfigSink.setAll contents entries) key = find? contents key := by
  induction entries generalizing contents with
  | nil => rfl
  | cons entry rest inductionHypothesis =>
    obtain ⟨different, unsetLater⟩ := not_or.mp (mt List.mem_cons.mpr unset)
    refine (inductionHypothesis unsetLater _).trans ?_
    rw [find?_set, if_neg (Ne.symm different)]

theorem find?_setAll_of_mem {key : String} {given : Json} {entries : List (String × Json)}
    (distinct : (entries.map Prod.fst).Nodup) (member : (key, given) ∈ entries)
    (contents : sink) : find? (ConfigSink.setAll contents entries) key = some given := by
  induction entries generalizing contents with
  | nil => cases member
  | cons entry rest inductionHypothesis =>
    obtain ⟨unset, distinctLater⟩ := List.nodup_cons.mp distinct
    rcases List.mem_cons.mp member with rfl | later
    · refine (find?_setAll_of_unset unset _).trans ?_
      rw [find?_set, if_pos rfl]
    · exact inductionHypothesis distinctLater later _

end

/-! ### What a secret gives -/

/-- Different keys of a secret stay different behind its prefix. -/
theorem SecretDescriptor.configKey_injective (secret : SecretDescriptor) :
    Function.Injective secret.configKey := by
  intro first second same
  unfold configKey at same
  cases front : secret.keysPrefix with
  | none => rwa [front] at same
  | some text =>
    rw [front] at same
    exact (String.append_right_inj text).mp same

/-- A payload with at most one value under each name. -/
def Secret.IsMap (value : Secret) : Prop := (value.payload.map Prod.fst).Nodup

/-- A secret gives a value for a key of the sink: the payload has it under a name that comes to
this key. -/
def Gives (secret : SecretDescriptor) (value : Secret) (key : String) (given : Json) : Prop :=
  ∃ name, secret.configKey name = key ∧ (name, given) ∈ value.payload

/-- What a secret gives is what is staged for it. -/
theorem gives_iff_mem {secret : SecretDescriptor} {value : Secret} {key : String} {given : Json} :
    Gives secret value key given ↔ (key, given) ∈ secret.configEntries value.payload := by
  unfold SecretDescriptor.configEntries
  rw [List.mem_map]
  constructor
  · rintro ⟨name, rfl, member⟩
    exact ⟨(name, given), member, rfl⟩
  · rintro ⟨⟨name, held⟩, member, same⟩
    cases same
    exact ⟨name, rfl, member⟩

theorem gives_congr {secret : SecretDescriptor} {value other : Secret} {key : String}
    {given : Json} (same : value.payload.Perm other.payload) :
    Gives secret value key given ↔ Gives secret other key given :=
  exists_congr fun _ => and_congr_right fun _ => same.mem_iff

theorem nodup_configEntries {value : Secret} (isMap : value.IsMap) (secret : SecretDescriptor) :
    ((secret.configEntries value.payload).map Prod.fst).Nodup := by
  have keys : (secret.configEntries value.payload).map Prod.fst =
      (value.payload.map Prod.fst).map secret.configKey := by
    simp [SecretDescriptor.configEntries, Function.comp_def]
  rw [keys]
  exact isMap.map secret.configKey_injective

/-- After the values of one secret have been set there is under each key the one it gives, and
what there was where it gives none. -/
theorem find?_setAll_configEntries {sink : Type} [ConfigSink sink] [MapSink sink]
    {value : Secret} (isMap : value.IsMap) (secret : SecretDescriptor) (contents : sink)
    (key : String) (given : Json) :
    find? (ConfigSink.setAll contents (secret.configEntries value.payload)) key = some given ↔
      Gives secret value key given ∨
        (∀ other, ¬Gives secret value key other) ∧ find? contents key = some given := by
  have distinct := nodup_configEntries isMap secret
  by_cases gives : ∃ held, Gives secret value key held
  · obtain ⟨held, heldGiven⟩ := gives
    rw [find?_setAll_of_mem distinct (gives_iff_mem.mp heldGiven)]
    constructor
    · rintro ⟨⟩
      exact .inl heldGiven
    · rintro (alsoGiven | ⟨none, -⟩)
      · rw [← find?_setAll_of_mem distinct (gives_iff_mem.mp heldGiven) contents,
          find?_setAll_of_mem distinct (gives_iff_mem.mp alsoGiven)]
      · exact absurd heldGiven (none held)
  · have none : ∀ other, ¬Gives secret value key other := not_exists.mp gives
    have unset : key ∉ (secret.configEntries value.payload).map Prod.fst := by
      intro member
      obtain ⟨⟨_, held⟩, found, rfl⟩ := List.mem_map.mp member
      exact none held (gives_iff_mem.mpr found)
    rw [find?_setAll_of_unset unset]
    exact ⟨fun found => .inr ⟨none, found⟩, fun found => (found.resolve_left (none given)).2⟩

/-! ### What some secrets give -/

namespace Loader

variable {secrets : List SecretDescriptor} {values : List Secret} {key : String} {given : Json}

/-- The secret at a place in the order of the descriptors gives a value for a key. -/
def GivesAt (secrets : List SecretDescriptor) (values : List Secret) (place : Nat) (key : String)
    (given : Json) : Prop :=
  ∃ secret value, secrets[place]? = some secret ∧ values[place]? = some value ∧
    Gives secret value key given

/-- The last secret that gives a value for a key at all gives this one. -/
def LastGives (secrets : List SecretDescriptor) (values : List Secret) (key : String)
    (given : Json) : Prop :=
  ∃ place, GivesAt secrets values place key given ∧
    ∀ later > place, ∀ other, ¬GivesAt secrets values later key other

/-- No secret gives a value for a key. -/
def NoneGives (secrets : List SecretDescriptor) (values : List Secret) (key : String) : Prop :=
  ∀ place other, ¬GivesAt secrets values place key other

section

variable {secret : SecretDescriptor} {value : Secret}

theorem givesAt_cons_zero :
    GivesAt (secret :: secrets) (value :: values) 0 key given ↔ Gives secret value key given := by
  simp [GivesAt]

theorem givesAt_cons_succ {place : Nat} :
    GivesAt (secret :: secrets) (value :: values) (place + 1) key given ↔
      GivesAt secrets values place key given := by
  simp [GivesAt]

theorem noneGives_cons :
    NoneGives (secret :: secrets) (value :: values) key ↔
      (∀ other, ¬Gives secret value key other) ∧ NoneGives secrets values key := by
  constructor
  · intro none
    exact ⟨fun other gives => none 0 other (givesAt_cons_zero.mpr gives),
      fun place other gives => none (place + 1) other (givesAt_cons_succ.mpr gives)⟩
  · rintro ⟨first, rest⟩ place other gives
    cases place with
    | zero => exact first other (givesAt_cons_zero.mp gives)
    | succ place => exact rest place other (givesAt_cons_succ.mp gives)

/-- What the later secrets give counts, and what the first gives only if they do not give the key.
-/
theorem lastGives_cons :
    LastGives (secret :: secrets) (value :: values) key given ↔
      LastGives secrets values key given ∨
        NoneGives secrets values key ∧ Gives secret value key given := by
  constructor
  · rintro ⟨place, gives, last⟩
    cases place with
    | zero =>
      refine .inr ⟨fun place other givesLater => ?_, givesAt_cons_zero.mp gives⟩
      exact last (place + 1) (Nat.succ_pos _) other (givesAt_cons_succ.mpr givesLater)
    | succ place =>
      refine .inl ⟨place, givesAt_cons_succ.mp gives, fun later after other givesLater => ?_⟩
      exact last (later + 1) (Nat.succ_lt_succ after) other (givesAt_cons_succ.mpr givesLater)
  · rintro (⟨place, gives, last⟩ | ⟨none, gives⟩)
    · refine ⟨place + 1, givesAt_cons_succ.mpr gives, fun later after other givesLater => ?_⟩
      cases later with
      | zero => cases after
      | succ later =>
        exact last later (Nat.lt_of_succ_lt_succ after) other (givesAt_cons_succ.mp givesLater)
    · refine ⟨0, givesAt_cons_zero.mpr gives, fun later after other givesLater => ?_⟩
      cases later with
      | zero => cases after
      | succ later => exact none later other (givesAt_cons_succ.mp givesLater)

end

/-- What a sink holds after a merge, key by key: the value that the last secret gives, and what it
held before where none does. -/
def Holds {sink : Type} [ConfigSink sink] [MapSink sink] (secrets : List SecretDescriptor)
    (values : List Secret) (before after : sink) : Prop :=
  ∀ key given, find? after key = some given ↔
    LastGives secrets values key given ∨
      NoneGives secrets values key ∧ find? before key = some given

/-- The entries of some secrets, set in their order, leave what the last secret gives. -/
theorem holds_setAll {sink : Type} [ConfigSink sink] [MapSink sink]
    (same : secrets.length = values.length) (maps : ∀ value ∈ values, value.IsMap)
    (before : sink) :
    Holds secrets values before (ConfigSink.setAll before (entriesFor secrets values)) := by
  induction secrets generalizing values before with
  | nil =>
    intro key given
    have noneGives : NoneGives [] values key := by
      rintro place other ⟨secret, value, found, -⟩
      cases found
    have noneLast : ¬LastGives [] values key given := fun ⟨place, gives, _⟩ =>
      noneGives place given gives
    exact ⟨fun found => .inr ⟨noneGives, found⟩, fun found => (found.resolve_left noneLast).2⟩
  | cons secret rest inductionHypothesis =>
    cases values with
    | nil => cases same
    | cons value others =>
      intro key given
      have entries : entriesFor (secret :: rest) (value :: others) =
          secret.configEntries value.payload ++ entriesFor rest others := rfl
      have split : ConfigSink.setAll before (entriesFor (secret :: rest) (value :: others)) =
          ConfigSink.setAll (ConfigSink.setAll before (secret.configEntries value.payload))
            (entriesFor rest others) := by
        rw [entries]
        exact List.foldl_append
      rw [split, inductionHypothesis (Nat.succ.inj same)
          (fun other member => maps other (List.mem_cons_of_mem _ member)) _ key given,
        find?_setAll_configEntries (maps value List.mem_cons_self), lastGives_cons,
        noneGives_cons]
      tauto

/-- Secrets with the same entries, each in an order of its own. -/
def Shuffled (values shuffled : List Secret) : Prop :=
  List.Forall₂ (fun value other => value.payload.Perm other.payload) values shuffled

/-- The order within a payload does not change what is given. -/
theorem Shuffled.givesAt_iff {shuffled : List Secret} (same : Shuffled values shuffled)
    (secrets : List SecretDescriptor) (place : Nat) (key : String) (given : Json) :
    GivesAt secrets values place key given ↔ GivesAt secrets shuffled place key given := by
  induction same generalizing secrets place with
  | nil => rfl
  | cons alike rest inductionHypothesis =>
    cases secrets with
    | nil => simp [GivesAt]
    | cons secret secrets =>
      cases place with
      | zero => rw [givesAt_cons_zero, givesAt_cons_zero, gives_congr alike]
      | succ place => rw [givesAt_cons_succ, givesAt_cons_succ, inductionHypothesis]

/-- In whatever order each secret is written, sinks that held the same hold the same after. -/
theorem Holds.unique {sink sink' : Type} [ConfigSink sink] [MapSink sink] [ConfigSink sink']
    [MapSink sink'] {shuffled : List Secret} {before after : sink} {before' after' : sink'}
    (first : Holds secrets values before after) (second : Holds secrets shuffled before' after')
    (same : Shuffled values shuffled) (alike : ∀ key, find? before' key = find? before key)
    (key : String) : find? after' key = find? after key := by
  refine Option.ext fun given => ?_
  rw [first, second, alike]
  simp only [LastGives, NoneGives, same.givesAt_iff]

/-- Merging once more changes nothing. -/
theorem Holds.again {sink : Type} [ConfigSink sink] [MapSink sink] {before after again : sink}
    (first : Holds secrets values before after) (second : Holds secrets values after again)
    (key : String) : find? again key = find? after key := by
  refine Option.ext fun given => ?_
  rw [second, first]
  tauto

/-! ### Cycles that return well -/

/-- Somewhere in some run a cycle for these descriptors returns well that was given these secrets,
and its sink held the one before the write and holds the other after it. -/
def Refreshes {sink : Type} [ConfigSink sink] (secrets : List SecretDescriptor)
    (values : List Secret) (before after : sink) : Prop :=
  ∃ (settings : LoaderSettings) (sinks : Target → sink) (actions : List Action)
    (state next : State sink) (action : Action) (party : Party) (cycle : Cycle) (auth : AuthToken),
    settings.secrets = secrets ∧ (State.start settings sinks).run? actions = some state ∧
      state.step? action = some next ∧ next.results = state.results ++ [(party, .ok ())] ∧
      state.cycles party = some cycle ∧ answersOf party actions = goodAnswers auth values ∧
      state.sinks cycle.delivery.target = before ∧ next.sinks cycle.delivery.target = after

theorem Refreshes.holds {sink : Type} [ConfigSink sink] [MapSink sink] {before after : sink}
    (refreshes : Refreshes secrets values before after) (maps : ∀ value ∈ values, value.IsMap) :
    Holds secrets values before after := by
  obtain ⟨settings, sinks, actions, state, next, action, party, cycle, auth, rfl, run, step,
    returned, running, answers, rfl, rfl⟩ := refreshes
  obtain ⟨other, given, others, alsoRunning, same, alsoAnswers, commits⟩ :=
    commits_of_returned run step returned
  cases Option.some.inj (running.symm.trans alsoRunning)
  obtain ⟨rfl, rfl⟩ := goodAnswers_inj (answers.symm.trans alsoAnswers)
  rw [commits.sinks, Function.update_self]
  exact holds_setAll same maps _

theorem Shuffled.maps {shuffled : List Secret} (same : Shuffled values shuffled)
    (maps : ∀ value ∈ values, value.IsMap) : ∀ value ∈ shuffled, value.IsMap := by
  induction same with
  | nil => exact nofun
  | @cons value other _ _ alike rest inductionHypothesis =>
    intro given member
    rcases List.mem_cons.mp member with rfl | later
    · have isMap : value.IsMap := maps value List.mem_cons_self
      exact ((alike.map Prod.fst).nodup_iff).mp isMap
    · exact inductionHypothesis (fun value inRest => maps value (List.mem_cons_of_mem _ inRest))
        given later

/-- A cycle that returns well leaves under each key the value of the last secret that gives one for
it, or what there was when it came inside; in whatever order each secret is written, in whatever way
the values reach their sink, and however often. -/
theorem merges_last_given {sink : Type} [ConfigSink sink] [MapSink sink]
    {settings : LoaderSettings} {sinks : Target → sink} {actions : List Action}
    {state next : State sink} {action : Action} {party : Party}
    (run : (State.start settings sinks).run? actions = some state)
    (step : state.step? action = some next)
    (returned : next.results = state.results ++ [(party, .ok ())])
    (maps : ∀ value, Answer.secret (.ok value) ∈ answersOf party actions → value.IsMap) :
    ∃ cycle auth values, state.cycles party = some cycle ∧
      settings.secrets.length = values.length ∧
      answersOf party actions = goodAnswers auth values ∧
      (∀ key given, find? (next.sinks cycle.delivery.target) key = some given ↔
        LastGives settings.secrets values key given ∨
          NoneGives settings.secrets values key ∧
            find? (state.sinks cycle.delivery.target) key = some given) ∧
      (∀ secret : SecretDescriptor, Function.Injective secret.configKey) ∧
      (∀ other ≠ cycle.delivery.target, next.sinks other = state.sinks other) ∧
      (∀ earlier during entered, actions = earlier ++ during →
        (State.start settings sinks).run? earlier = some entered → entered.IsInside party →
        (∀ step ∈ during, ¬step.BeginsCycleOf party) → state.sinks = entered.sinks) ∧
      (∀ (shuffled : List Secret) (before after : sink), Shuffled values shuffled →
        Refreshes settings.secrets shuffled before after →
        (∀ key, find? before key = find? (state.sinks cycle.delivery.target) key) →
        ∀ key, find? after key = find? (next.sinks cycle.delivery.target) key) ∧
      ∀ again, Refreshes settings.secrets values (next.sinks cycle.delivery.target) again →
        ∀ key, find? again key = find? (next.sinks cycle.delivery.target) key := by
  obtain ⟨cycle, auth, values, running, same, answers, commits⟩ :=
    commits_of_returned run step returned
  have distinct : ∀ value ∈ values, value.IsMap := by
    intro value member
    refine maps value ?_
    rw [answers]
    exact List.mem_cons_of_mem _ (List.mem_map_of_mem member)
  have holds : Holds settings.secrets values (state.sinks cycle.delivery.target)
      (next.sinks cycle.delivery.target) := by
    rw [commits.sinks, Function.update_self]
    exact holds_setAll same distinct _
  refine ⟨cycle, auth, values, running, same, answers, holds,
    SecretDescriptor.configKey_injective, fun other different => ?_,
    fun earlier during entered split began inside sameCycle => ?_,
    fun shuffled before after alike refreshes heldAlike => ?_, fun again refreshes => ?_⟩
  · rw [commits.sinks, Function.update_of_ne different]
  · rw [split, State.run?_append, began] at run
    have stillInside : state.IsInside party :=
      ⟨cycle, running, by rw [commits.stage]; exact Stage.noConfusion⟩
    exact sinks_while_inside began inside run sameCycle stillInside
  · exact holds.unique (refreshes.holds (alike.maps distinct)) alike heldAlike
  · exact holds.again (refreshes.holds distinct)

/-- Two secrets whose prefixes overlap, so that different names of theirs come to one key. -/
def overlapping : LoaderSettings where
  secrets := [⟨"a", some "A"⟩, ⟨"b", some "AB"⟩]
  maxRetry := 0
  retryDelay := Duration.zero
  stopOnFailure := false
  initialDelay := Duration.zero
  watched := false

/-- A whole cycle up to its write into the shared sink. -/
def overlap : List Action :=
  [.begin 0 .locking, .enter (.host 0),
    .tokenReturned (.host 0) (.ok ⟨"s", Duration.ofSeconds 60⟩), .tokenTaken (.host 0),
    .readReturned (.host 0)
      (.ok { payload := [("BC", .text "x"), ("D", .text "y")], lease := .ofSeconds 40 }),
    .readReturned (.host 0) (.ok { payload := [("C", .text "z")], lease := .ofSeconds 20 }),
    .askSink (.host 0)]

theorem merges_last_given_of_overlap : ∃ state next : State Values,
    (State.start overlapping fun _ => Values.empty).run? overlap = some state ∧
      state.step? (.commit (.host 0)) = some next ∧
      next.results = state.results ++ [(.host 0, .ok ())] ∧
      (∃ cycle auth values, state.cycles (.host 0) = some cycle ∧
        answersOf (.host 0) overlap = goodAnswers auth values ∧
        ∀ key given, find? (next.sinks cycle.delivery.target) key = some given ↔
          LastGives overlapping.secrets values key given ∨
            NoneGives overlapping.secrets values key ∧
              find? (state.sinks cycle.delivery.target) key = some given) ∧
      (next.sinks .shared).getText? "ABC" = some "z" ∧
      (next.sinks .shared).getText? "AD" = some "y" := by
  obtain ⟨state, next, run, step, returned, shared, alone⟩ : ∃ state next : State Values,
      (State.start overlapping fun _ => Values.empty).run? overlap = some state ∧
        state.step? (.commit (.host 0)) = some next ∧
        next.results = state.results ++ [(.host 0, .ok ())] ∧
        (next.sinks .shared).getText? "ABC" = some "z" ∧
        (next.sinks .shared).getText? "AD" = some "y" :=
    ⟨_, _, rfl, rfl, rfl, by decide, by decide⟩
  have maps : ∀ value, Answer.secret (.ok value) ∈ answersOf (.host 0) overlap →
      value.IsMap := by
    intro value member
    simp [answersOf, overlap, Action.answersAfter] at member
    rcases member with rfl | rfl <;> simp [Secret.IsMap]
  obtain ⟨cycle, auth, values, running, -, answers, holds, -⟩ :=
    merges_last_given run step returned maps
  exact ⟨state, next, run, step, returned, ⟨cycle, auth, values, running, answers, holds⟩,
    shared, alone⟩

end Loader

end SecretRenewal
