/-
This file proves that the three sinks hold one and the same map. Written to alike, each of them has
under every key what was set there last, and nothing under any other. The values in key order have
one entry for each key, so they are determined by what is found in them: two lists in strictly
ascending order with the same entries are equal, and that makes the listing of the search tree the
listing of the values and the listing of the hash table a rearrangement of it.
-/
import SecretRenewal.Proofs.Json.Ordering
import SecretRenewal.Proofs.Loader.Merges
import Mathlib.Data.List.Dedup

namespace SecretRenewal

/-! ### What was set last -/

/-- Of everything that was set, this value was the last under its key. -/
def IsLastSet (given : List (String × Json)) (key : String) (value : Json) : Prop :=
  ∃ before after, given = before ++ (key, value) :: after ∧ key ∉ after.map Prod.fst

/-- What was set under one key, in order. -/
def setUnder (given : List (String × Json)) (key : String) : List (String × Json) :=
  given.filter fun entry => entry.1 = key

/-- The last value that was set under a key, if one was. -/
def lastSet? (given : List (String × Json)) (key : String) : Option Json :=
  (setUnder given key).getLast?.map Prod.snd

section

variable {given : List (String × Json)} {key : String} {value : Json}

theorem not_isLastSet_nil : ¬IsLastSet [] key value := by
  rintro ⟨before, after, isEmpty, -⟩
  exact absurd isEmpty.symm (List.append_ne_nil_of_right_ne_nil before (List.cons_ne_nil _ _))

theorem IsLastSet.mem (isLast : IsLastSet given key value) : (key, value) ∈ given := by
  obtain ⟨before, after, rfl, -⟩ := isLast
  exact List.mem_append_right before List.mem_cons_self

theorem isLastSet_cons {entry : String × Json} :
    IsLastSet (entry :: given) key value ↔
      IsLastSet given key value ∨ key ∉ given.map Prod.fst ∧ entry = (key, value) := by
  constructor
  · rintro ⟨before, after, split, unset⟩
    cases before with
    | nil =>
      cases split
      exact .inr ⟨unset, rfl⟩
    | cons first before =>
      cases split
      exact .inl ⟨before, after, rfl, unset⟩
  · rintro (⟨before, after, rfl, unset⟩ | ⟨unset, rfl⟩)
    · exact ⟨entry :: before, after, rfl, unset⟩
    · exact ⟨[], given, rfl, unset⟩

theorem setUnder_eq_nil_iff : setUnder given key = [] ↔ key ∉ given.map Prod.fst := by
  unfold setUnder
  rw [List.filter_eq_nil_iff, List.mem_map]
  constructor
  · rintro none ⟨entry, member, same⟩
    exact none entry member (decide_eq_true same)
  · intro unset entry member same
    exact unset ⟨entry, member, of_decide_eq_true same⟩

/-- The last value that was set under a key is the last of those that were set under it. -/
theorem isLastSet_iff_getLast? :
    IsLastSet given key value ↔ (setUnder given key).getLast? = some (key, value) := by
  induction given with
  | nil => exact iff_of_false not_isLastSet_nil nofun
  | cons entry rest inductionHypothesis =>
    rw [isLastSet_cons, inductionHypothesis, ← setUnder_eq_nil_iff]
    by_cases same : entry.1 = key
    · have under : setUnder (entry :: rest) key = entry :: setUnder rest key :=
        List.filter_cons_of_pos (decide_eq_true same)
      rw [under, List.getLast?_cons]
      cases later : setUnder rest key with
      | nil => simp
      | cons next others => simp [List.getLast?_cons]
    · have under : setUnder (entry :: rest) key = setUnder rest key :=
        List.filter_cons_of_neg (mt of_decide_eq_true same)
      have other : entry ≠ (key, value) := fun isEntry => same (congrArg Prod.fst isEntry)
      rw [under]
      exact or_iff_left fun ⟨_, isEntry⟩ => other isEntry

theorem lastSet?_eq_some_iff : lastSet? given key = some value ↔ IsLastSet given key value := by
  rw [isLastSet_iff_getLast?, lastSet?, Option.map_eq_some_iff]
  constructor
  · rintro ⟨⟨name, held⟩, isLast, rfl⟩
    have under : (name, held) ∈ setUnder given key := List.mem_of_getLast? isLast
    have same : name = key := of_decide_eq_true (List.mem_filter.mp under).2
    rw [isLast, same]
  · exact fun isLast => ⟨(key, value), isLast, rfl⟩

/-- A sink has under a key what was set there last, and what it had where nothing was. -/
theorem find?_setAll_eq_some_iff {sink : Type} [ConfigSink sink] [MapSink sink] (contents : sink) :
    find? (ConfigSink.setAll contents given) key = some value ↔
      IsLastSet given key value ∨
        key ∉ given.map Prod.fst ∧ find? contents key = some value := by
  induction given generalizing contents with
  | nil =>
    rw [or_iff_right not_isLastSet_nil]
    exact (and_iff_right List.not_mem_nil).symm
  | cons entry rest inductionHypothesis =>
    obtain ⟨name, held⟩ := entry
    refine (inductionHypothesis _).trans ?_
    rw [isLastSet_cons, find?_set, List.map_cons, List.mem_cons, not_or]
    by_cases same : name = key
    · subst same
      simp
    · simp [same, Ne.symm same]

/-- A sink that was empty has under a key what was set there last. -/
theorem find?_setAll_of_empty {sink : Type} [ConfigSink sink] [MapSink sink] {contents : sink}
    (empty : ∀ key, find? contents key = none) :
    find? (ConfigSink.setAll contents given) key = some value ↔ IsLastSet given key value := by
  rw [find?_setAll_eq_some_iff, empty]
  exact or_iff_left fun ⟨_, found⟩ => nomatch found

theorem exists_isLastSet_iff : (∃ value, IsLastSet given key value) ↔ key ∈ given.map Prod.fst := by
  induction given with
  | nil => simp [not_isLastSet_nil]
  | cons entry rest inductionHypothesis =>
    obtain ⟨name, held⟩ := entry
    simp only [isLastSet_cons, exists_or, inductionHypothesis, List.map_cons, List.mem_cons]
    by_cases later : key ∈ rest.map Prod.fst
    · simp [later]
    · simp [later, eq_comm]

end

/-! ### Lists in ascending order -/

namespace Entries

variable {value : Type}

/-- Keys in ascending order with the same entries are the same list. -/
theorem Ascending.eq_of_mem_iff {first second : Entries value} (ascending : first.Ascending)
    (alsoAscending : second.Ascending) (same : ∀ entry, entry ∈ first ↔ entry ∈ second) :
    first = second := by
  have nodup {entries : Entries value} (ascending : entries.Ascending) : entries.Nodup :=
    List.Nodup.of_map Prod.fst ascending.nodup_keys
  refine List.Perm.eq_of_pairwise (fun _ _ _ _ before after => ?_) ascending alsoAscending
    ((List.perm_ext_iff_of_nodup (nodup ascending) (nodup alsoAscending)).mpr same)
  exact absurd after (String.lt_asymm before)

theorem get?_eq_none_of_lt {entries : Entries value} {key : String}
    (before : ∀ entry ∈ entries, key < entry.1) : entries.get? key = none := by
  induction entries with
  | nil => rfl
  | cons entry rest inductionHypothesis =>
    have other : entry.1 ≠ key := by
      rintro rfl
      exact String.lt_irrefl _ (before entry List.mem_cons_self)
    refine (if_neg other).trans ?_
    exact inductionHypothesis fun later member => before later (List.mem_cons_of_mem _ member)

theorem get?_first (name : String) (held : value) (rest : Entries value) :
    Entries.get? ((name, held) :: rest) name = some held :=
  if_pos rfl

theorem get?_later {name key : String} (other : name ≠ key) (held : value)
    (rest : Entries value) : Entries.get? ((name, held) :: rest) key = rest.get? key :=
  if_neg other

/-- Nothing is found under a key that comes before the first one. -/
theorem Ascending.first_le {name key : String} {held found : value} {rest : Entries value}
    (ascending : Ascending ((name, held) :: rest))
    (isFound : Entries.get? ((name, held) :: rest) key = some found) : name ≤ key := by
  refine String.not_lt.mp fun before => ?_
  have none : Entries.get? ((name, held) :: rest) key = none :=
    get?_eq_none_of_lt fun entry member => by
      rcases List.mem_cons.mp member with rfl | later
      · exact before
      · exact String.lt_trans before ((List.pairwise_cons.mp ascending).1 entry later)
  rw [none] at isFound
  cases isFound

/-- Under its key each entry is found, and nothing else is. -/
theorem Ascending.get?_eq_some_iff {entries : Entries value} (ascending : entries.Ascending)
    {key : String} {held : value} : entries.get? key = some held ↔ (key, held) ∈ entries := by
  induction entries with
  | nil => exact iff_of_false nofun List.not_mem_nil
  | cons entry rest inductionHypothesis =>
    obtain ⟨name, first⟩ := entry
    obtain ⟨least, restAscending⟩ := List.pairwise_cons.mp ascending
    unfold get?
    by_cases same : name = key
    · subst same
      have unlisted : (name, held) ∉ rest := fun member =>
        String.lt_irrefl name (least (name, held) member)
      rw [if_pos rfl, List.mem_cons, or_iff_left unlisted]
      simp [eq_comm]
    · rw [if_neg same, inductionHypothesis restAscending, List.mem_cons]
      exact (or_iff_right fun isFirst => same (congrArg Prod.fst isFirst).symm).symm

end Entries

/-! ### Values that are the same -/

namespace Json

/-- Both pieces of data are missing, or both are there and the same. -/
def Alike : Option Json → Option Json → Prop :=
  Option.Rel fun held other => same held other = true

/-- Two lists in key order hold the same data exactly if they do so under every key. -/
theorem sameMembers_iff {first second : Entries Json} (ascending : first.Ascending)
    (alsoAscending : second.Ascending) :
    sameMembers first second = true ↔ ∀ key, Alike (first.get? key) (second.get? key) := by
  induction first generalizing second with
  | nil =>
    cases second with
    | nil => exact iff_of_true (by simp [sameMembers]) fun _ => .none
    | cons entry others =>
      refine iff_of_false (by simp [sameMembers]) fun alike => ?_
      have found := alike entry.1
      rw [Entries.get?_first] at found
      cases found
  | cons entry rest inductionHypothesis =>
    obtain ⟨name, held⟩ := entry
    cases second with
    | nil =>
      refine iff_of_false (by simp [sameMembers]) fun alike => ?_
      have found := alike name
      rw [Entries.get?_first] at found
      cases found
    | cons entry others =>
      obtain ⟨otherName, other⟩ := entry
      obtain ⟨least, restAscending⟩ := List.pairwise_cons.mp ascending
      obtain ⟨otherLeast, othersAscending⟩ := List.pairwise_cons.mp alsoAscending
      rw [sameMembers, Bool.and_eq_true, Bool.and_eq_true, beq_iff_eq,
        inductionHypothesis restAscending othersAscending]
      constructor
      · rintro ⟨⟨rfl, heldAlike⟩, restAlike⟩ key
        by_cases isName : name = key
        · rw [← isName, Entries.get?_first, Entries.get?_first]
          exact .some heldAlike
        · rw [Entries.get?_later isName, Entries.get?_later isName]
          exact restAlike key
      · intro alike
        -- Each first key is found in the other list, so neither comes before the other.
        have sameName : name = otherName := by
          have forth := alike name
          have back := alike otherName
          rw [Entries.get?_first] at forth back
          generalize isForth : Entries.get? ((otherName, other) :: others) name = there at forth
          generalize isBack : Entries.get? ((name, held) :: rest) otherName = here at back
          cases forth
          cases back
          exact String.le_antisymm (ascending.first_le isBack) (alsoAscending.first_le isForth)
        subst sameName
        refine ⟨⟨rfl, ?_⟩, fun key => ?_⟩
        · have found := alike name
          rw [Entries.get?_first, Entries.get?_first] at found
          cases found
          assumption
        · by_cases isName : name = key
          · rw [← isName, Entries.get?_eq_none_of_lt least, Entries.get?_eq_none_of_lt otherLeast]
            exact .none
          · have found := alike key
            rwa [Entries.get?_later isName, Entries.get?_later isName] at found

end Json

/-! ### Listings -/

/-- In ascending order every entry is the last one under its key. -/
theorem Entries.Ascending.isLastSet_iff {entries : Entries Json} (ascending : entries.Ascending)
    {key : String} {value : Json} : IsLastSet entries key value ↔ (key, value) ∈ entries := by
  refine ⟨IsLastSet.mem, fun member => ?_⟩
  obtain ⟨before, after, rfl⟩ := List.append_of_mem member
  have distinct := ascending.nodup_keys
  rw [List.map_append, List.map_cons] at distinct
  exact ⟨before, after, rfl, (List.nodup_cons.mp (List.nodup_append.mp distinct).2.1).1⟩

theorem find?_emptyTree (key : String) : find? (∅ : Std.TreeMap String Json) key = none :=
  Std.TreeMap.getElem?_emptyc

namespace Values

variable (values : Values)

theorem mem_toList_iff {key : String} {value : Json} :
    (key, value) ∈ values.toList ↔ values.get? key = some value :=
  values.ascending.get?_eq_some_iff.symm

/-- A tree in which the same is found is listed in the same way. -/
theorem toList_tree {tree : Std.TreeMap String Json}
    (same : ∀ key value, tree[key]? = some value ↔ values.get? key = some value) :
    tree.toList = values.toList := by
  have ascending : Entries.Ascending tree.toList := by
    refine List.Pairwise.imp ?_ tree.ordered_keys_toList
    exact fun before => compareOfLessAndEq_eq_lt.mp before
  refine ascending.eq_of_mem_iff values.ascending fun entry => ?_
  rw [Std.TreeMap.mem_toList_iff_getElem?_eq_some, same]
  exact values.mem_toList_iff.symm

/-- A table in which the same is found is listed with the same entries, in some order. -/
theorem toList_table {table : Std.HashMap String Json}
    (same : ∀ key value, table[key]? = some value ↔ values.get? key = some value) :
    table.toList.Perm values.toList := by
  have nodup : table.toList.Nodup := by
    refine List.Pairwise.imp (fun distinct same => ?_) Std.HashMap.distinct_keys_toList
    rw [same, beq_self_eq_true] at distinct
    cases distinct
  refine (List.perm_ext_iff_of_nodup nodup
    (List.Nodup.of_map Prod.fst values.ascending.nodup_keys)).mpr fun entry => ?_
  rw [Std.HashMap.mem_toList_iff_getElem?_eq_some, same]
  exact values.mem_toList_iff.symm

theorem getElem?_toTree {key : String} {value : Json} :
    values.toTree[key]? = some value ↔ values.get? key = some value :=
  (find?_setAll_of_empty find?_emptyTree).trans
    (values.ascending.isLastSet_iff.trans values.mem_toList_iff)

/-- In the values a text is found where the value is one. -/
theorem getText?_eq_some_iff {key text : String} :
    values.getText? key = some text ↔ values.get? key = some (.text text) := by
  unfold getText?
  rw [Option.bind_eq_some_iff]
  constructor
  · rintro ⟨value, found, isText⟩
    cases value with
    | text other =>
      cases isText
      exact found
    | _ => cases isText
  · exact fun found => ⟨_, found, rfl⟩

theorem eq_of_get? {first second : Values}
    (same : ∀ key value, first.get? key = some value ↔ second.get? key = some value) :
    first = second := by
  obtain ⟨entries, ascending⟩ := first
  obtain ⟨others, alsoAscending⟩ := second
  have sameEntries : entries = others := ascending.eq_of_mem_iff alsoAscending fun entry =>
    ascending.get?_eq_some_iff.symm.trans
      ((same entry.1 entry.2).trans alsoAscending.get?_eq_some_iff)
  subst sameEntries
  rfl

end Values

/-- In the order of the numbers of their characters one text comes before another. -/
def CodesBefore (first second : String) : Prop :=
  first.toList.map Char.toNat < second.toList.map Char.toNat

theorem codesBefore_of_lt {first second : String} (before : first < second) :
    CodesBefore first second :=
  List.map_lt (fun _ _ less => UInt32.lt_iff_toNat_lt.mp less) (String.lt_iff.mp before)

/-! ### Three sinks -/

section

variable (given : List (String × Json))

/-- Everything that was set, in the values in key order. -/
def setValues : Values := ConfigSink.setAll Values.empty given

/-- Everything that was set, in the hash table. -/
def setTable : Std.HashMap String Json := ConfigSink.setAll ∅ given

/-- Everything that was set, in the search tree. -/
def setTree : Std.TreeMap String Json := ConfigSink.setAll ∅ given

/-- The sinks hold what was set last under each key and nothing else, and they tell so. -/
structure HoldLastSet (values : Values) (table : Std.HashMap String Json)
    (tree : Std.TreeMap String Json) : Prop where
  inValues : ∀ key value, values.get? key = some value ↔ IsLastSet given key value
  inTable : ∀ key value, table[key]? = some value ↔ IsLastSet given key value
  inTree : ∀ key value, tree[key]? = some value ↔ IsLastSet given key value
  keys : ∀ key, key ∈ values.toList.map Prod.fst ↔ key ∈ given.map Prod.fst
  size : values.size = (given.map Prod.fst).dedup.length
  untouched : values.isEmpty = true ↔ given = []
  texts : ∀ key text, values.getText? key = some text ↔ IsLastSet given key (.text text)
  ordered : (values.toList.map Prod.fst).Pairwise CodesBefore
  listed : ∀ key value, (key, value) ∈ values.toList ↔ IsLastSet given key value
  listedTable : table.toList.Perm values.toList
  listedTree : tree.toList = values.toList
  converted : values.toTree.toList = values.toList

theorem get?_setValues {key : String} {value : Json} :
    (setValues given).get? key = some value ↔ IsLastSet given key value := by
  have empty : ∀ key, find? Values.empty key = none := Values.get?_empty
  exact find?_setAll_of_empty empty

theorem getElem?_setTable {key : String} {value : Json} :
    (setTable given)[key]? = some value ↔ IsLastSet given key value := by
  have empty (key : String) : find? (∅ : Std.HashMap String Json) key = none :=
    Std.HashMap.getElem?_empty
  exact find?_setAll_of_empty empty

theorem getElem?_setTree {key : String} {value : Json} :
    (setTree given)[key]? = some value ↔ IsLastSet given key value :=
  find?_setAll_of_empty find?_emptyTree

theorem mem_keys_setValues {key : String} :
    key ∈ (setValues given).toList.map Prod.fst ↔ key ∈ given.map Prod.fst := by
  refine Iff.trans ?_ exists_isLastSet_iff
  constructor
  · intro member
    obtain ⟨⟨_, value⟩, listed, rfl⟩ := List.mem_map.mp member
    exact ⟨value, (get?_setValues given).mp ((Values.mem_toList_iff _).mp listed)⟩
  · rintro ⟨value, isLast⟩
    exact List.mem_map.mpr
      ⟨(key, value), (Values.mem_toList_iff _).mpr ((get?_setValues given).mpr isLast), rfl⟩

theorem size_setValues : (setValues given).size = (given.map Prod.fst).dedup.length := by
  have sameKeys : ((setValues given).toList.map Prod.fst).Perm (given.map Prod.fst).dedup :=
    (List.perm_ext_iff_of_nodup (setValues given).ascending.nodup_keys
      (List.nodup_dedup _)).mpr fun _ => (mem_keys_setValues given).trans List.mem_dedup.symm
  rw [← sameKeys.length_eq, List.length_map]
  rfl

theorem isEmpty_setValues : (setValues given).isEmpty = true ↔ given = [] := by
  have unset : (setValues given).toList.map Prod.fst = [] ↔ given.map Prod.fst = [] := by
    rw [List.eq_nil_iff_forall_not_mem, List.eq_nil_iff_forall_not_mem]
    exact forall_congr' fun _ => not_congr (mem_keys_setValues given)
  rw [List.map_eq_nil_iff, List.map_eq_nil_iff] at unset
  exact List.isEmpty_iff.trans unset

theorem holdLastSet : HoldLastSet given (setValues given) (setTable given) (setTree given) where
  inValues _ _ := get?_setValues given
  inTable _ _ := getElem?_setTable given
  inTree _ _ := getElem?_setTree given
  keys _ := mem_keys_setValues given
  size := size_setValues given
  untouched := isEmpty_setValues given
  texts _ _ := (Values.getText?_eq_some_iff _).trans (get?_setValues given)
  ordered := by
    rw [List.pairwise_map]
    exact List.Pairwise.imp codesBefore_of_lt (setValues given).ascending
  listed _ _ := (Values.mem_toList_iff _).trans (get?_setValues given)
  listedTable := Values.toList_table _ fun _ _ =>
    (getElem?_setTable given).trans (get?_setValues given).symm
  listedTree := Values.toList_tree _ fun _ _ =>
    (getElem?_setTree given).trans (get?_setValues given).symm
  converted := Values.toList_tree _ fun _ _ => Values.getElem?_toTree _

end

/-- The three sinks hold the same map, what was set last under each key, and the values in key order
tell what it is. They are the same for two lists exactly if what was set last under each key is, so
it makes no difference in which order different keys were set. -/
theorem sinks_hold_last_set (given : List (String × Json)) :
    HoldLastSet given (setValues given) (setTable given) (setTree given) ∧
    ∀ others : List (String × Json),
      ((setValues given).same (setValues others) = true ↔
        ∀ key, Json.Alike (lastSet? given key) (lastSet? others key)) ∧
      (setValues given = setValues others ↔
        ∀ key value, IsLastSet given key value ↔ IsLastSet others key value) ∧
      ((∀ key, setUnder given key = setUnder others key) →
        setValues given = setValues others) := by
  refine ⟨holdLastSet given, fun others => ?_⟩
  have held (given : List (String × Json)) (key : String) :
      (setValues given).get? key = lastSet? given key :=
    Option.ext fun _ => (get?_setValues given).trans lastSet?_eq_some_iff.symm
  have alike : (setValues given).same (setValues others) = true ↔
      ∀ key, Json.Alike (lastSet? given key) (lastSet? others key) := by
    simp only [← held]
    exact Json.sameMembers_iff (setValues given).ascending (setValues others).ascending
  have equal : setValues given = setValues others ↔
      ∀ key value, IsLastSet given key value ↔ IsLastSet others key value := by
    constructor
    · intro equal key value
      rw [← get?_setValues, equal, get?_setValues]
    · intro sameLast
      refine Values.eq_of_get? fun key value => ?_
      rw [get?_setValues, get?_setValues, sameLast]
  refine ⟨alike, equal, fun sameOrder => equal.mpr fun key value => ?_⟩
  rw [isLastSet_iff_getLast?, isLastSet_iff_getLast?, sameOrder]

end SecretRenewal
