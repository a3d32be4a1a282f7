/-
This file proves that whatever is read as data has the keys of each of its objects in ascending
order, one value under each, however deep the object lies. A reader puts every member that it reads
in its place, and the proof goes along the steps of the reader: what one of them leaves in order,
the next one finds in order.
-/
import SecretRenewal.Proofs.Json.Fields

namespace SecretRenewal

namespace Entries

variable {value : Type}

/-- Setting a key puts in nothing but its new value. -/
theorem eq_or_mem_of_mem_set {entries : Entries value} {key : String} {given : value}
    {entry : String × value} (member : entry ∈ entries.set key given) :
    entry = (key, given) ∨ entry ∈ entries := by
  induction entries with
  | nil => exact .inl (List.mem_singleton.mp member)
  | cons first rest inductionHypothesis =>
    unfold set at member
    split at member
    · exact List.mem_cons.mp member
    split at member
    · exact (List.mem_cons.mp member).imp id (List.mem_cons_of_mem _)
    · rcases List.mem_cons.mp member with rfl | later
      · exact .inr List.mem_cons_self
      · exact (inductionHypothesis later).imp id (List.mem_cons_of_mem _)

/-- Keys in ascending order are all different. -/
theorem Ascending.nodup_keys {entries : Entries value} (ascending : entries.Ascending) :
    (entries.map Prod.fst).Nodup := by
  refine List.pairwise_map.mpr (List.Pairwise.imp ?_ ascending)
  intro first second before same
  rw [same] at before
  exact String.lt_irrefl _ before

end Entries

namespace Json

/-- The keys of every object are in ascending order. -/
inductive Ordered : Json → Prop
  | null : Ordered .null
  | boolean (value : Bool) : Ordered (.boolean value)
  | integer (value : Int) : Ordered (.integer value)
  | real (value : Binary64) : Ordered (.real value)
  | text (value : String) : Ordered (.text value)
  | list {items : List Json} (inside : ∀ item ∈ items, Ordered item) : Ordered (.list items)
  | object {members : Entries Json} (ascending : members.Ascending)
      (inside : ∀ member ∈ members, Ordered member.2) : Ordered (.object members)

namespace Ordered

theorem nothing : Ordered (.object []) := .object List.Pairwise.nil nofun

theorem ascending {members : Entries Json} (ordered : Ordered (.object members)) :
    members.Ascending := by
  cases ordered
  assumption

theorem of_mem {members : Entries Json} (ordered : Ordered (.object members))
    {member : String × Json} (inside : member ∈ members) : Ordered member.2 := by
  cases ordered with
  | object _ each => exact each member inside

/-- An object stays in order when a member is set to what is in order. -/
theorem set {members : Entries Json} (ordered : Ordered (.object members)) (key : String)
    {value : Json} (orderedValue : Ordered value) : Ordered (.object (members.set key value)) := by
  refine .object (ordered.ascending.set key value) fun member inside => ?_
  rcases Entries.eq_or_mem_of_mem_set inside with rfl | before
  · exact orderedValue
  · exact ordered.of_mem before

end Ordered

namespace Reader

/-! ### What holds of all that is read -/

/-- Whatever the reader reads, this holds of it. -/
def Yields {value : Type} (reader : Reader value) (holds : value → Prop) : Prop :=
  ∀ ⦃bytes rest : List UInt8⦄ ⦃result : value⦄, reader bytes = .ok (result, rest) → holds result

section

variable {value other : Type} {holds : value → Prop} {reader : Reader value}

theorem Yields.pure {result : value} (given : holds result) :
    Yields (pure result : Reader value) holds := by
  rintro _ _ _ ⟨⟩
  exact given

/-- Of a reader that always fails anything holds. -/
theorem Never.yields (never : Never reader) : Yields reader holds := by
  intro bytes rest result read
  obtain ⟨problem, failed⟩ := never bytes
  rw [failed] at read
  cases read

theorem Yields.throw (problem : Problem) : Yields (throw problem : Reader value) holds := nofun

theorem Yields.refuse : Yields (refuse : Reader value) holds := nofun

theorem Yields.differ (difference : Mismatch) :
    Yields (differ difference : Reader value) holds := nofun

/-- What was read before may be used. -/
theorem Yields.after {first : Reader other} {next : other → Reader value} {passed : other → Prop}
    (before : Yields first passed) (each : ∀ result, passed result → Yields (next result) holds) :
    Yields (first >>= next) holds := by
  intro bytes rest result read
  obtain ⟨earlier, middle, readFirst, readNext⟩ := exists_of_bind read
  exact each earlier (before readFirst) readNext

theorem Yields.bind {first : Reader other} {next : other → Reader value}
    (each : ∀ result, Yields (next result) holds) : Yields (first >>= next) holds :=
  .after (fun _ _ _ _ => trivial : Yields first fun _ => True) fun result _ => each result

/-- What holds of both branches holds of their choice. -/
theorem Yields.ite {condition : Prop} [Decidable condition] {first second : Reader value}
    (yields : Yields first holds) (otherwise : Yields second holds) :
    Yields (if condition then first else second) holds := by
  split
  · exact yields
  · exact otherwise

theorem Yields.nested {depth : Nat} {inside : Nat → Reader value}
    (yields : ∀ depth, Yields (inside depth) holds) : Yields (nested depth inside) holds :=
  .ite .refuse (yields _)

/-- A reader that keeps what holds of its state keeps it from member to member. -/
theorem Yields.foldMembers {member : String → value → Reader value}
    (keeps : ∀ key current, holds current → Yields (member key current) holds) (steps : Nat)
    (first : Bool) {current : value} (before : holds current) :
    Yields (foldMembers member steps first current) holds := by
  induction steps generalizing first current with
  | zero => exact .throw _
  | succ steps inductionHypothesis =>
    unfold Reader.foldMembers
    refine .bind fun key => ?_
    cases key with
    | none => exact .pure before
    | some key => exact .after (keeps key current before) fun next => inductionHypothesis false

/-- What holds of a record read from a list and of one read from an object holds of the record. -/
theorem Yields.record {name : String} {depth : Nat} {fromList fromObject : Nat → Reader value}
    (list : ∀ depth, Yields (fromList depth) holds)
    (object : ∀ depth, Yields (fromObject depth) holds) :
    Yields (record name depth fromList fromObject) holds := by
  unfold Reader.record
  refine .bind fun byte => .ite ?_ (.ite ?_ (never_wrongType _).yields)
  · exact .nested fun depth => .bind fun _ =>
      .after (list depth) fun _ given => .bind fun _ => .pure given
  · exact .nested fun depth => .bind fun _ =>
      .after (object depth) fun _ given => .bind fun _ => .pure given

theorem Yields.onceField {name : String} {earlier : Option value}
    (yields : Yields reader holds) :
    Yields (onceField name earlier reader) fun field => ∀ given ∈ field, holds given := by
  unfold Reader.onceField
  refine .ite (.differ _) (.bind fun _ => .after yields fun _ given => .pure ?_)
  rintro _ ⟨⟩
  exact given

theorem Yields.optional (yields : Yields reader holds) :
    Yields (optional reader) fun given => ∀ present ∈ given, holds present := by
  unfold Reader.optional
  refine .bind fun _ => .ite (.bind fun _ => .pure nofun) (.after yields fun _ given => .pure ?_)
  rintro _ ⟨⟩
  exact given

theorem Yields.item? {first : Bool} (yields : Yields reader holds) :
    Yields (item? first reader) fun item => ∀ given ∈ item, holds given := by
  unfold Reader.item?
  refine .bind fun _ => .ite (.after yields fun _ given => .pure ?_) (.pure nofun)
  rintro _ ⟨⟩
  exact given

/-- What holds of all that a reader reads holds of what comes of a whole text. -/
theorem Yields.run (yields : Yields reader holds) {bytes : List UInt8} {result : value}
    (read : run reader bytes = .ok result) : holds result := by
  unfold Reader.run at read
  split at read
  · cases read
  · rename_i outcome
    split at read
    · cases read
      exact yields outcome
    · cases read

end

/-! ### Data of any shape -/

/-- What `anyValue`, `anyItems` and `anyMembers` read with so many steps is in order, and the
members are if those before were. -/
theorem ordered_of_steps (steps : Nat) :
    (∀ depth, Yields (anyValue steps depth) Ordered) ∧
      (∀ depth first, Yields (anyItems steps depth first) fun items =>
        ∀ item ∈ items, Ordered item) ∧
      ∀ depth first (members : Entries Json), Ordered (.object members) →
        Yields (anyMembers steps depth first members) fun entries => Ordered (.object entries) := by
  induction steps with
  | zero => exact ⟨fun _ => .throw _, fun _ _ => .throw _, fun _ _ _ _ => .throw _⟩
  | succ steps inductionHypothesis =>
    obtain ⟨value, items, members⟩ := inductionHypothesis
    refine ⟨fun depth => ?_, fun depth first => ?_, fun depth first before ordered => ?_⟩
    · unfold anyValue
      refine .bind fun byte => ?_
      refine .ite (.bind fun _ => .pure .null) (.ite (.bind fun _ => .pure (.boolean true))
        (.ite (.bind fun _ => .pure (.boolean false)) (.ite (.bind fun number => ?_)
          (.ite (.bind fun _ => .bind fun text => .pure (.text text))
            (.ite ?_ (.ite ?_ .refuse))))))
      · cases number with
        | integer number => exact .pure (.integer number)
        | real number => exact .pure (.real number)
      · exact .nested fun depth => .bind fun _ =>
          .after (items depth true) fun _ inside => .bind fun _ => .pure (.list inside)
      · exact .nested fun depth => .bind fun _ =>
          .after (members depth true [] .nothing) fun _ ordered => .bind fun _ => .pure ordered
    · unfold anyItems
      refine .bind fun _ => .ite (.after (value depth) fun item ordered => ?_) (.pure nofun)
      exact .after (items depth false) fun _ inside =>
        .pure (List.forall_mem_cons.mpr ⟨ordered, inside⟩)
    · unfold anyMembers
      refine .bind fun key => ?_
      cases key with
      | none => exact .pure ordered
      | some key =>
        exact .bind fun _ => .after (value depth) fun _ orderedValue =>
          members depth false _ (ordered.set key orderedValue)

theorem ordered_of_mapValue (depth : Nat) :
    Yields (mapValue depth) fun entries => Ordered (.object entries) := by
  unfold mapValue
  refine .bind fun _ => .ite (.nested fun depth => .bind fun _ => .bind fun steps => ?_)
    (never_wrongType _).yields
  exact .after ((ordered_of_steps steps).2.2 depth true [] .nothing) fun _ ordered =>
    .bind fun _ => .pure ordered

end Reader

end Json

end SecretRenewal
