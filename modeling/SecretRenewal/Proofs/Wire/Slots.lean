/-
This file says what taking up the members of an object comes to when each member fills the slot of
its name and no slot is filled twice. Members of other names are passed over, so a slot depends on
the members of its name alone: it stays empty where there is none, it holds what the only one means,
and with two of them the whole object is refused. Both kinds of replies are read in this way.
-/
import SecretRenewal.Proofs.Json.Fields

namespace SecretRenewal.Json

/-- The values of the members of a name, as they stand. -/
def named (name : String) (members : List (String × Document)) : List Document :=
  (members.filter fun entry => entry.1 == name).map Prod.snd

theorem named_cons_of_eq {name : String} {entry : String × Document} (same : entry.1 = name)
    (members : List (String × Document)) :
    named name (entry :: members) = entry.2 :: named name members := by
  simp only [named, List.filter_cons, same, beq_self_eq_true, if_true, List.map_cons]

theorem named_cons_of_ne {name : String} {entry : String × Document} (differs : entry.1 ≠ name)
    (members : List (String × Document)) : named name (entry :: members) = named name members := by
  simp only [named, List.filter_cons, beq_iff_eq, differs, if_false]

/-! ### One slot -/

/-- Fills a slot with an outcome, unless it has been filled before. -/
def fill? {value : Type} (earlier outcome : Option value) : Option (Option value) :=
  if earlier.isSome then none else outcome.map some

/-- What a slot holds in the end: nothing where nothing was given, and what the only thing means
where one was. -/
def filled? {source value : Type} (meaning : source → Option value) :
    List source → Option (Option value)
  | [] => some none
  | [only] => (meaning only).map some
  | _ => none

theorem filled?_eq_some_iff {source value : Type} {meaning : source → Option value}
    {sources : List source} {held : Option value} :
    filled? meaning sources = some held ↔ sources = [] ∧ held = none ∨
      ∃ only result, sources = [only] ∧ meaning only = some result ∧ held = some result := by
  match sources with
  | [] => simp [filled?, eq_comm]
  | [only] => simp [filled?, Option.map_eq_some_iff, eq_comm]
  | _ :: _ :: _ => simp [filled?]

/-- What a slot holds depends neither on the order in which things were given nor on how they say
what they mean. -/
theorem filled?_of_perm {source plain value : Type} {meaning : source → Option value}
    {simple : plain → Option value} {simplify : source → plain} {first second : List source}
    (firstMeans : ∀ given ∈ first, meaning given = simple (simplify given))
    (secondMeans : ∀ given ∈ second, meaning given = simple (simplify given))
    (same : (first.map simplify).Perm (second.map simplify)) :
    filled? meaning first = filled? meaning second := by
  have length : first.length = second.length := by
    have mapped := same.length_eq
    rwa [List.length_map, List.length_map] at mapped
  match first, second, length with
  | [], [], _ => rfl
  | [one], [other], _ =>
    have simplified : simplify one = simplify other := by
      have singletons := List.perm_singleton.mp same
      exact (List.cons.inj singletons).1
    show (meaning one).map some = (meaning other).map some
    rw [firstMeans one List.mem_cons_self, secondMeans other List.mem_cons_self, simplified]
  | _ :: _ :: _, _ :: _ :: _, _ => rfl

/-- So what was held is held again, where every meaning depends on no more than that. -/
theorem filled?_eq_of_perm {source plain value : Type} {meaning : source → Option value}
    {simple : plain → Option value} {simplify : source → plain} {first second : List source}
    {held : Option (Option value)} (means : ∀ given, meaning given = simple (simplify given))
    (same : (first.map simplify).Perm (second.map simplify))
    (isHeld : filled? meaning first = held) : filled? meaning second = held :=
  (filled?_of_perm (fun given _ => means given) (fun given _ => means given) same.symm).trans isHeld

/-- A slot of a record that is being read. -/
structure Slot (record : Type) where
  /-- What the slot holds. -/
  value : Type
  /-- The name of the members that fill it. -/
  name : String
  /-- What it holds in a record. -/
  get : record → Option value
  /-- The record with something else in it. -/
  set : record → Option value → record
  /-- What a document means in it. -/
  meaning : Document → Option value

namespace Slot

variable {record : Type} {slots : List (Slot record)}

/-- Slots have different names, and setting one leaves the others. -/
structure Lawful (slots : List (Slot record)) : Prop where
  /-- No name occurs twice. -/
  distinct : (slots.map Slot.name).Nodup
  /-- What is set is held. -/
  get_set : ∀ slot ∈ slots, ∀ current held, slot.get (slot.set current held) = held
  /-- What is not set is left. -/
  get_set_other : ∀ slot ∈ slots, ∀ other ∈ slots, slot.name ≠ other.name → ∀ current held,
    other.get (slot.set current held) = other.get current
  /-- There is nothing else in a record. -/
  ext : ∀ first second, (∀ slot ∈ slots, slot.get first = slot.get second) → first = second

/-- The slot of a name, if there is one. -/
def find? (slots : List (Slot record)) (name : String) : Option (Slot record) :=
  List.find? (fun slot => slot.name = name) slots

theorem find?_of_mem (distinct : (slots.map Slot.name).Nodup) {slot : Slot record}
    (member : slot ∈ slots) {name : String} (same : name = slot.name) :
    find? slots name = some slot := by
  subst same
  induction slots with
  | nil => cases member
  | cons other rest inductionHypothesis =>
    obtain ⟨notLater, distinctRest⟩ := List.nodup_cons.mp distinct
    unfold find?
    rcases List.mem_cons.mp member with rfl | later
    · rw [List.find?_cons, decide_eq_true rfl]
    · have differs : other.name ≠ slot.name := fun same =>
        notLater (same ▸ List.mem_map_of_mem later)
      rw [List.find?_cons, decide_eq_false differs]
      exact inductionHypothesis distinctRest later

theorem name_of_find? {slot : Slot record} {name : String} (found : find? slots name = some slot) :
    slot ∈ slots ∧ slot.name = name := by
  have holds := List.find?_some found
  exact ⟨List.mem_of_find?_eq_some found, of_decide_eq_true holds⟩

/-- Takes a member up into the slot of its name. Members of other names are passed over. -/
def take? (slots : List (Slot record)) (current : record) (entry : String × Document) :
    Option record :=
  match find? slots entry.1 with
  | some slot => (fill? (slot.get current) (slot.meaning entry.2)).map (slot.set current)
  | none => some current

/-- What a slot holds after further members of its name. -/
def further? (slot : Slot record) (earlier : Option slot.value) (documents : List Document) :
    Option (Option slot.value) :=
  documents.foldlM (fun held document => fill? held (slot.meaning document)) earlier

namespace Lawful

variable {start finish : record} {members : List (String × Document)}

theorem take?_of_name (lawful : Lawful slots) {slot : Slot record} (member : slot ∈ slots)
    {entry : String × Document} (same : entry.1 = slot.name) (current : record) :
    take? slots current entry =
      (fill? (slot.get current) (slot.meaning entry.2)).map (slot.set current) := by
  rw [take?, find?_of_mem lawful.distinct member same]

/-- A slot of another name is left. -/
theorem get_of_take? (lawful : Lawful slots) {slot : Slot record} (member : slot ∈ slots)
    {entry : String × Document} (differs : entry.1 ≠ slot.name) {current next : record}
    (taken : take? slots current entry = some next) : slot.get next = slot.get current := by
  unfold take? at taken
  split at taken
  · rename_i other found
    obtain ⟨isSlot, name⟩ := name_of_find? found
    obtain ⟨held, -, rfl⟩ := Option.map_eq_some_iff.mp taken
    exact lawful.get_set_other other isSlot slot member
      (fun same => differs (name.symm.trans same)) _ _
  · cases taken
    rfl

/-- After all members every slot holds what the members of its name come to. -/
theorem further?_of_some (lawful : Lawful slots)
    (taken : members.foldlM (take? slots) start = some finish) {slot : Slot record}
    (member : slot ∈ slots) :
    slot.further? (slot.get start) (named slot.name members) = some (slot.get finish) := by
  induction members generalizing start with
  | nil =>
    cases taken
    rfl
  | cons entry members inductionHypothesis =>
    rw [List.foldlM_cons] at taken
    obtain ⟨next, first, others⟩ := Option.bind_eq_some_iff.mp taken
    have held := inductionHypothesis others
    by_cases same : entry.1 = slot.name
    · rw [lawful.take?_of_name member same] at first
      obtain ⟨filled, isFilled, rfl⟩ := Option.map_eq_some_iff.mp first
      rw [lawful.get_set slot member] at held
      rw [named_cons_of_eq same, further?, List.foldlM_cons, isFilled]
      exact held
    · rw [named_cons_of_ne same, ← lawful.get_of_take? member same first]
      exact held

/-- Where the members are refused, some slot refuses the members of its name. -/
theorem exists_of_none (lawful : Lawful slots)
    (refused : members.foldlM (take? slots) start = none) : ∃ slot ∈ slots,
      slot.further? (slot.get start) (named slot.name members) = none := by
  induction members generalizing start with
  | nil => cases refused
  | cons entry members inductionHypothesis =>
    rw [List.foldlM_cons] at refused
    cases first : take? slots start entry with
    | none =>
      unfold take? at first
      split at first
      · rename_i slot found
        obtain ⟨isSlot, same⟩ := name_of_find? found
        refine ⟨slot, isSlot, ?_⟩
        rw [named_cons_of_eq same.symm, further?, List.foldlM_cons,
          Option.map_eq_none_iff.mp first]
        rfl
      · cases first
    | some next =>
      rw [first] at refused
      obtain ⟨slot, member, cannot⟩ := inductionHypothesis refused
      refine ⟨slot, member, ?_⟩
      by_cases same : entry.1 = slot.name
      · rw [lawful.take?_of_name member same] at first
        obtain ⟨filled, isFilled, rfl⟩ := Option.map_eq_some_iff.mp first
        rw [lawful.get_set slot member] at cannot
        rw [named_cons_of_eq same, further?, List.foldlM_cons, isFilled]
        exact cannot
      · rw [named_cons_of_ne same, ← lawful.get_of_take? member same first]
        exact cannot

end Lawful

theorem further?_none (slot : Slot record) (documents : List Document) :
    slot.further? none documents = filled? slot.meaning documents := by
  match documents with
  | [] => rfl
  | [document] =>
    rw [filled?]
    show Option.bind ((slot.meaning document).map some) some = _
    cases slot.meaning document <;> rfl
  | document :: another :: rest =>
    show Option.bind ((slot.meaning document).map some) _ = none
    cases slot.meaning document <;> rfl

/-- A record that starts with empty slots is read just where every slot takes the members of its
name, and then every slot holds what they come to. -/
theorem Lawful.foldlM_eq_some_iff (lawful : Lawful slots) {members : List (String × Document)}
    {start finish : record} (empty : ∀ slot ∈ slots, slot.get start = none) :
    members.foldlM (take? slots) start = some finish ↔
      ∀ slot ∈ slots, filled? slot.meaning (named slot.name members) = some (slot.get finish) := by
  constructor
  · intro taken slot member
    have held := lawful.further?_of_some taken member
    rw [empty slot member, further?_none] at held
    exact held
  · intro held
    cases outcome : members.foldlM (take? slots) start with
    | none =>
      obtain ⟨slot, member, cannot⟩ := lawful.exists_of_none outcome
      rw [empty slot member, further?_none, held slot member] at cannot
      cases cannot
    | some other =>
      refine congrArg some (lawful.ext _ _ fun slot member => ?_)
      have also := lawful.further?_of_some outcome member
      rw [empty slot member, further?_none, held slot member] at also
      exact (Option.some.inj also).symm

theorem Lawful.exists_foldlM_iff (lawful : Lawful slots) {members : List (String × Document)}
    {start : record} (empty : ∀ slot ∈ slots, slot.get start = none) :
    (∃ finish, members.foldlM (take? slots) start = some finish) ↔
      ∀ slot ∈ slots, ∃ held, filled? slot.meaning (named slot.name members) = some held := by
  constructor
  · rintro ⟨finish, taken⟩ slot member
    exact ⟨_, (lawful.foldlM_eq_some_iff empty).mp taken slot member⟩
  · intro each
    cases outcome : members.foldlM (take? slots) start with
    | some finish => exact ⟨finish, rfl⟩
    | none =>
      obtain ⟨slot, member, cannot⟩ := lawful.exists_of_none outcome
      obtain ⟨held, isHeld⟩ := each slot member
      rw [empty slot member, further?_none, isHeld] at cannot
      cases cannot

end Slot

end SecretRenewal.Json
