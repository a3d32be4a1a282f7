/-
This file says what replies are read from. A reply is an object; each of the fields that are known
may stand in it once, anywhere between others that nothing asks for, and what it has to look like is
said here in terms of what is written. The answer to a read request may lack all of its fields. The
answer to a login has to hold the token and its lease, inside a member of its own.
-/
import SecretRenewal.Proofs.Wire.Slots
import SecretRenewal.Wire.LoginReply
import SecretRenewal.Wire.SecretReply

namespace SecretRenewal

open Json Json.Reader

/-! ### What comes of the members -/

namespace Json

/-- Bytes that hold an object with these members, nested no deeper than a text may be, in which
every number is one of those that are admitted. -/
def ObjectText (admitted : Numeral → Prop) (members : List (String × Document))
    (bytes : List UInt8) : Prop :=
  WritesItem (.object members) bytes ∧ (Document.object members).Fits admitted 127

theorem Reader.run_of_reads {value : Type} {reader : Reader value} {bytes rest : List UInt8}
    {outcome : Option value} (reads : Reads reader bytes rest outcome) (blank : Blanks rest) :
    (run reader bytes).toOption = outcome := by
  unfold run
  cases outcome with
  | some result =>
    rw [show reader bytes = .ok (result, rest) from reads]
    show (if rest.all isBlank then _ else _ : Except Problem value).toOption = _
    rw [if_pos (List.all_eq_true.mpr blank)]
    rfl
  | none =>
    obtain ⟨problem, failed⟩ := reads
    rw [failed]
    rfl

/-- A member that no slot asks for is passed over. -/
theorem Slot.take?_of_other {record : Type} {slots : List (Slot record)} {entry : String × Document}
    (other : ∀ slot ∈ slots, entry.1 ≠ slot.name) (current : record) :
    take? slots current entry = some current := by
  have nowhere : find? slots entry.1 = none := List.find?_eq_none.mpr fun slot member =>
    mt of_decide_eq_true (other slot member).symm
  rw [take?, nowhere]

end Json

namespace SecretReply

/-- The slots of an answer to a read request. -/
def slots : List (Slot Fields) :=
  [⟨_, "data", (·.data), fun fields data => { fields with data }, (·.orNull? Document.entries?)⟩,
    ⟨_, "lease_id", (·.leaseId), fun fields leaseId => { fields with leaseId }, Document.text?⟩,
    ⟨_, "lease_duration", (·.leaseSeconds), fun fields leaseSeconds => { fields with leaseSeconds },
      Document.word?⟩,
    ⟨_, "renewable", (·.renewable), fun fields renewable => { fields with renewable },
      Document.boolean?⟩]

theorem lawful_slots : Slot.Lawful slots where
  distinct := by decide
  get_set := by
    intro slot member
    simp only [slots, List.mem_cons, List.not_mem_nil, or_false] at member
    rcases member with rfl | rfl | rfl | rfl <;> exact fun _ _ => rfl
  get_set_other := by
    intro slot member other otherMember differs
    simp only [slots, List.mem_cons, List.not_mem_nil, or_false] at member otherMember
    rcases member with rfl | rfl | rfl | rfl <;> rcases otherMember with rfl | rfl | rfl | rfl <;>
      first | exact fun _ _ => rfl | exact absurd rfl differs
  ext := by
    rintro ⟨_, _, _, _⟩ ⟨_, _, _, _⟩ same
    simp only [slots, List.forall_mem_cons] at same
    obtain ⟨rfl, rfl, rfl, rfl, -⟩ := same
    rfl

theorem member_readsMember {levels : Nat} {entry : String × Document}
    (fits : entry.2.Fits Numeral.Finite levels) (fields : Fields) :
    ReadsMember (member (levels + 1) entry.1 fields) entry.2 (Slot.take? slots fields entry) := by
  unfold member
  by_cases isData : entry.1 = "data"
  · rw [if_pos isData, lawful_slots.take?_of_name List.mem_cons_self isData]
    have payload := optional_readsAs (mapValue_readsAs fits)
    exact (onceField_readsMember payload "data" fields.data).map _
  by_cases isLeaseId : entry.1 = "lease_id"
  · rw [if_neg isData, if_pos isLeaseId,
      lawful_slots.take?_of_name (List.mem_cons_of_mem _ List.mem_cons_self) isLeaseId]
    exact (onceField_readsMember (textValue_readsAs _) "lease_id" fields.leaseId).map _
  by_cases isLease : entry.1 = "lease_duration"
  · rw [if_neg isData, if_neg isLeaseId, if_pos isLease, lawful_slots.take?_of_name
      (List.mem_cons_of_mem _ (List.mem_cons_of_mem _ List.mem_cons_self)) isLease]
    exact (onceField_readsMember (wordValue_readsAs _) "lease_duration" fields.leaseSeconds).map _
  by_cases isRenewable : entry.1 = "renewable"
  · rw [if_neg isData, if_neg isLeaseId, if_neg isLease, if_pos isRenewable,
      lawful_slots.take?_of_name (List.mem_cons_of_mem _ (List.mem_cons_of_mem _
        (List.mem_cons_of_mem _ List.mem_cons_self))) isRenewable]
    exact (onceField_readsMember (booleanValue_readsAs _) "renewable" fields.renewable).map _
  · rw [if_neg isData, if_neg isLeaseId, if_neg isLease, if_neg isRenewable]
    have other : ∀ slot ∈ slots, entry.1 ≠ slot.name := by
      simp only [slots, List.forall_mem_cons]
      exact ⟨isData, isLeaseId, isLease, isRenewable, nofun⟩
    rw [Slot.take?_of_other other]
    exact (otherField_readsMember _).map fun _ => fields

/-- A reply is read member by member, each into the slot of its name. -/
theorem record_reads {levels : Nat} {members : List (String × Document)}
    (fits : (Document.object members).Fits Numeral.Finite (levels + 1))
    {before inner : List UInt8} (blank : Blanks before) (written : Writes (.object members) inner)
    (rest : List UInt8) :
    Reads (record "SecretResponse" (levels + 2) fieldsInOrder fun depth => do
        foldMembers (member depth) (← enoughSteps) true {})
      (before ++ (inner ++ rest)) rest (members.foldlM (Slot.take? slots) {}) := by
  cases fits with
  | object fit =>
    have folded := foldMembers_of_object
      (fun entry isMember current => member_readsMember (fit entry isMember) current)
      written (length_le_enough inner rest) {} rest
    exact record_of_object blank written (Reads.of_ok (enoughSteps_eq _) folded)

/-- What comes of an object is what comes of its members one after another. -/
theorem toOption_parse {members : List (String × Document)} {bytes : List UInt8}
    (text : ObjectText Numeral.Finite members bytes) :
    (parse bytes).toOption = (members.foldlM (Slot.take? slots) {}).map Fields.complete := by
  obtain ⟨@⟨_, before, inner, after, blankBefore, written, blankAfter⟩, fits⟩ := text
  have read : Reads reader (before ++ (inner ++ after)) after _ :=
    (record_reads fits blankBefore written after).map Fields.complete
  exact run_of_reads read blankAfter

end SecretReply

namespace LoginReply

/-- The slots of the inner record. -/
def slots : List (Slot Fields) :=
  [⟨_, "client_token", (·.token), fun fields token => { fields with token }, Document.text?⟩,
    ⟨_, "policies", (·.policies), fun fields policies => { fields with policies },
      Document.texts?⟩,
    ⟨_, "lease_duration", (·.leaseSeconds), fun fields leaseSeconds => { fields with leaseSeconds },
      Document.word?⟩,
    ⟨_, "renewable", (·.renewable), fun fields renewable => { fields with renewable },
      Document.boolean?⟩]

theorem lawful_slots : Slot.Lawful slots where
  distinct := by decide
  get_set := by
    intro slot member
    simp only [slots, List.mem_cons, List.not_mem_nil, or_false] at member
    rcases member with rfl | rfl | rfl | rfl <;> exact fun _ _ => rfl
  get_set_other := by
    intro slot member other otherMember differs
    simp only [slots, List.mem_cons, List.not_mem_nil, or_false] at member otherMember
    rcases member with rfl | rfl | rfl | rfl <;> rcases otherMember with rfl | rfl | rfl | rfl <;>
      first | exact fun _ _ => rfl | exact absurd rfl differs
  ext := by
    rintro ⟨_, _, _, _⟩ ⟨_, _, _, _⟩ same
    simp only [slots, List.forall_mem_cons] at same
    obtain ⟨rfl, rfl, rfl, rfl, -⟩ := same
    rfl

theorem member_readsMember {levels : Nat} {entry : String × Document}
    (fits : entry.2.Fits Numeral.Finite levels) (fields : Fields) :
    ReadsMember (member (levels + 1) entry.1 fields) entry.2 (Slot.take? slots fields entry) := by
  unfold member
  by_cases isToken : entry.1 = "client_token"
  · rw [if_pos isToken, lawful_slots.take?_of_name List.mem_cons_self isToken]
    exact (onceField_readsMember (textValue_readsAs _) "client_token" fields.token).map _
  by_cases isPolicies : entry.1 = "policies"
  · rw [if_neg isToken, if_pos isPolicies,
      lawful_slots.take?_of_name (List.mem_cons_of_mem _ List.mem_cons_self) isPolicies]
    exact (onceField_readsMember (texts_readsAs fits) "policies" fields.policies).map _
  by_cases isLease : entry.1 = "lease_duration"
  · rw [if_neg isToken, if_neg isPolicies, if_pos isLease, lawful_slots.take?_of_name
      (List.mem_cons_of_mem _ (List.mem_cons_of_mem _ List.mem_cons_self)) isLease]
    exact (onceField_readsMember (wordValue_readsAs _) "lease_duration" fields.leaseSeconds).map _
  by_cases isRenewable : entry.1 = "renewable"
  · rw [if_neg isToken, if_neg isPolicies, if_neg isLease, if_pos isRenewable,
      lawful_slots.take?_of_name (List.mem_cons_of_mem _ (List.mem_cons_of_mem _
        (List.mem_cons_of_mem _ List.mem_cons_self))) isRenewable]
    exact (onceField_readsMember (booleanValue_readsAs _) "renewable" fields.renewable).map _
  · rw [if_neg isToken, if_neg isPolicies, if_neg isLease, if_neg isRenewable]
    have other : ∀ slot ∈ slots, entry.1 ≠ slot.name := by
      simp only [slots, List.forall_mem_cons]
      exact ⟨isToken, isPolicies, isLease, isRenewable, nofun⟩
    rw [Slot.take?_of_other other]
    exact (otherField_readsMember _).map fun _ => fields

/-- The answer of the inner record's members, if none is missing that has to be there. -/
def complete? (fields : Fields) : Option LoginReply :=
  match fields.token, fields.leaseSeconds with
  | some token, some leaseSeconds =>
    some { token, policies := fields.policies.getD [], leaseSeconds
           renewable := fields.renewable.getD false }
  | _, _ => none

/-- A login reply is complete if it has a token and the time that it lasts. -/
theorem complete_reads (fields : Fields) (bytes : List UInt8) :
    Reads fields.complete bytes bytes (complete? fields) := by
  unfold Fields.complete complete?
  cases fields.token with
  | none => exact fails_differ _ _
  | some token =>
    cases fields.leaseSeconds with
    | none => exact fails_differ _ _
    | some leaseSeconds => rfl

/-- What an object means as the inner record. -/
def inner? : Document → Option LoginReply
  | .object members => (members.foldlM (Slot.take? slots) {}).bind complete?
  | _ => none

/-- What is inside is read as an object, where it is no list. -/
theorem inner_readsAs {levels : Nat} {document : Document}
    (fits : document.Fits Numeral.Finite levels) (noList : document.kind ≠ .list) :
    ReadsAs (inner (levels + 1)) document (inner? document) := by
  intro blanks bytes rest blank written ends
  cases fits with
  | object fit =>
    have folded := foldMembers_of_object
      (fun entry isMember current => member_readsMember (fit entry isMember) current)
      written (length_le_enough bytes rest) {} rest
    exact record_of_object blank written (Reads.of_ok (enoughSteps_eq _)
      (folded.bind fun fields _ => complete_reads fields _))
  | list => exact absurd rfl noList
  | _ => exact record_of_other blank written nofun nofun _

/-- The slot of the outer record. -/
def outerSlots : List (Slot (Option LoginReply)) :=
  [⟨_, "auth", id, fun _ auth => auth, inner?⟩]

theorem lawful_outerSlots : Slot.Lawful outerSlots where
  distinct := by decide
  get_set := by
    intro slot member
    cases List.mem_singleton.mp member
    exact fun _ _ => rfl
  get_set_other := by
    intro slot member other otherMember differs
    cases List.mem_singleton.mp member
    cases List.mem_singleton.mp otherMember
    exact absurd rfl differs
  ext := fun _ _ same => same _ (List.mem_singleton.mpr rfl)

theorem outerMember_readsMember {levels : Nat} {entry : String × Document}
    (fits : entry.2.Fits Numeral.Finite levels)
    (noList : entry.1 = "auth" → entry.2.kind ≠ .list) (auth : Option LoginReply) :
    ReadsMember (outerMember (levels + 1) entry.1 auth) entry.2
      (Slot.take? outerSlots auth entry) := by
  unfold outerMember
  by_cases isAuth : entry.1 = "auth"
  · rw [if_pos isAuth, lawful_outerSlots.take?_of_name List.mem_cons_self isAuth]
    have once := onceField_readsMember (inner_readsAs fits (noList isAuth)) "auth" auth
    show ReadsMember _ _ ((fill? auth (inner? entry.2)).map id)
    rw [Option.map_id]
    exact once
  · have other : ∀ slot ∈ outerSlots, entry.1 ≠ slot.name := by
      intro slot member
      cases List.mem_singleton.mp member
      exact isAuth
    rw [if_neg isAuth, Slot.take?_of_other other]
    exact (otherField_readsMember _).map fun _ => auth

/-- Outside there is one slot, for the object with the reply. -/
theorem outerRecord_reads {levels : Nat} {members : List (String × Document)}
    (fits : (Document.object members).Fits Numeral.Finite (levels + 1))
    (noList : ∀ entry ∈ members, entry.1 = "auth" → entry.2.kind ≠ .list)
    {before inner : List UInt8} (blank : Blanks before) (written : Writes (.object members) inner)
    (rest : List UInt8) {fromList : Nat → Json.Reader LoginReply} :
    Reads (record outerName (levels + 2) fromList fun depth => do
        match ← foldMembers (outerMember depth) (← enoughSteps) true none with
        | some reply => return reply
        | none => differ (.missingField "auth"))
      (before ++ (inner ++ rest)) rest
      ((members.foldlM (Slot.take? outerSlots) none).bind id) := by
  cases fits with
  | object fit =>
    have folded := foldMembers_of_object
      (fun entry isMember current => outerMember_readsMember (fit entry isMember)
        (noList entry isMember) current)
      written (length_le_enough inner rest) none rest
    refine record_of_object blank written (Reads.of_ok (enoughSteps_eq _)
      (folded.bind fun auth _ => ?_))
    cases auth with
    | none => exact fails_differ _ _
    | some reply => rfl

/-- What comes of an object is what comes of its members named for the inner record. -/
theorem toOption_parse {members : List (String × Document)} {bytes : List UInt8}
    (text : ObjectText Numeral.Finite members bytes)
    (noList : ∀ entry ∈ members, entry.1 = "auth" → entry.2.kind ≠ .list) :
    (parse bytes).toOption = (members.foldlM (Slot.take? outerSlots) none).bind id := by
  obtain ⟨@⟨_, before, inner, after, blankBefore, written, blankAfter⟩, fits⟩ := text
  have read : Reads reader (before ++ (inner ++ after)) after _ :=
    outerRecord_reads fits noList blankBefore written after
  exact run_of_reads read blankAfter

end LoginReply

end SecretRenewal
