/-
This file proves which objects are accepted as replies and what is read from them. An object is
accepted just where each known field stands in it at most once and has its kind, and where the
answer to a login also has the fields it cannot do without. What is read is what the fields say, or
a default where one is missing; blanks, the order of the fields and all other members play no part.

Every number in the text has to stay finite while it is read. It is not enough that its value lies
among the finite floating-point numbers: the digits and the power of ten are rounded separately, so
a number just below the greatest one can still be refused, as the last theorem shows.
-/
import SecretRenewal.Proofs.Results
import SecretRenewal.Proofs.Wire.Replies

namespace SecretRenewal

namespace Json

/-! ### Kinds of values -/

/-- A number is written without a sign, a point and an exponent. -/
def Numeral.IsUnsigned (numeral : Numeral) : Prop :=
  numeral.negative = false ∧ numeral.fraction = [] ∧ numeral.exponent = none

namespace Document

/-- Null or an object. -/
def IsNullOrObject (document : Document) : Prop :=
  document = .null ∨ ∃ members, document = .object members

/-- A text. -/
def IsText (document : Document) : Prop := ∃ value, document = .text value

/-- A list of texts. -/
def IsTexts (document : Document) : Prop :=
  ∃ items, document = .list items ∧ ∀ item ∈ items, IsText item

/-- A truth value. -/
def IsBoolean (document : Document) : Prop := ∃ value, document = .boolean value

/-- A whole number without a sign that 64 bits hold. -/
def IsWord (document : Document) : Prop :=
  ∃ numeral, document = .number numeral ∧ numeral.IsUnsigned ∧
    digitsValue numeral.whole ≤ Nat.pow 2 64 - 1

/-- Null means nothing. An object means keys in ascending order, each with what the last member of
its name means. -/
def MeansEntries (document : Document) (given : Option (Entries Json)) : Prop :=
  document = .null ∧ given = none ∨
    ∃ members entries, document = .object members ∧ given = some entries ∧
      entries.Ascending ∧ ∀ key, entries.get? key = (named key members).getLast?.map json

/-- A text means itself. -/
def MeansText (document : Document) (given : String) : Prop := document = .text given

/-- A list of texts means these texts. -/
def MeansTexts (document : Document) (given : List String) : Prop :=
  document = .list (given.map .text)

/-- A truth value means itself. -/
def MeansBoolean (document : Document) (given : Bool) : Prop := document = .boolean given

/-- A whole number means the number its digits write. -/
def MeansWord (document : Document) (given : UInt64) : Prop :=
  ∃ numeral, document = .number numeral ∧ numeral.IsUnsigned ∧
    digitsValue numeral.whole = given.toNat

end Document

/-! ### Fields of an object -/

section

variable (name : String) (kind : Document → Prop) (members : List (String × Document))

/-- One member at most has this name, and its value is of this kind. -/
def AtMostOnce : Prop := named name members = [] ∨ ∃ only, named name members = [only] ∧ kind only

/-- One member has this name, and its value is of this kind. -/
def Once : Prop := ∃ only, named name members = [only] ∧ kind only

end

/-- What is given is what the only member of a name means, or else the default. -/
def GivenOrDefault {value : Type} (name : String) (means : Document → value → Prop)
    (default : value) (members : List (String × Document)) (given : value) : Prop :=
  named name members = [] ∧ given = default ∨
    ∃ only, named name members = [only] ∧ means only given

end Json

open Json

namespace SecretReply

/-- The fields that are known. -/
def names : List String := ["data", "lease_id", "lease_duration", "renewable"]

/-- Every known field occurs once at most and has its kind. -/
def Shaped (members : List (String × Document)) : Prop :=
  AtMostOnce "data" Document.IsNullOrObject members ∧
    AtMostOnce "lease_id" Document.IsText members ∧
    AtMostOnce "lease_duration" Document.IsWord members ∧
    AtMostOnce "renewable" Document.IsBoolean members

/-- Every field of the answer is what is written, or its default. -/
structure Says (members : List (String × Document)) (reply : SecretReply) : Prop where
  /-- The payload. -/
  data : GivenOrDefault "data" Document.MeansEntries none members reply.data
  /-- What the store calls the lease. -/
  leaseId : GivenOrDefault "lease_id" Document.MeansText "" members reply.leaseId
  /-- The seconds of the lease. -/
  leaseSeconds : GivenOrDefault "lease_duration" Document.MeansWord 0 members reply.leaseSeconds
  /-- Whether the lease can be extended. -/
  renewable : GivenOrDefault "renewable" Document.MeansBoolean false members reply.renewable

end SecretReply

namespace LoginReply

/-- The fields of the inner record that are known. -/
def names : List String := ["client_token", "policies", "lease_duration", "renewable"]

/-- The inner record has the fields it cannot do without, and no known field twice. -/
def ShapedInner (members : List (String × Document)) : Prop :=
  Once "client_token" Document.IsText members ∧ Once "lease_duration" Document.IsWord members ∧
    AtMostOnce "policies" Document.IsTexts members ∧
    AtMostOnce "renewable" Document.IsBoolean members

/-- The inner record occurs once and is an object of its shape. -/
def Shaped (members : List (String × Document)) : Prop :=
  Once "auth" (fun document => ∃ inner, document = .object inner ∧ ShapedInner inner) members

/-- Every field of the answer is what is written in the inner record, or its default. -/
structure SaysInner (members : List (String × Document)) (reply : LoginReply) : Prop where
  /-- The token. -/
  token : Once "client_token" (fun document => document.MeansText reply.token) members
  /-- The seconds of the lease. -/
  leaseSeconds :
    Once "lease_duration" (fun document => document.MeansWord reply.leaseSeconds) members
  /-- The policies. -/
  policies : GivenOrDefault "policies" Document.MeansTexts [] members reply.policies
  /-- Whether the lease can be extended. -/
  renewable : GivenOrDefault "renewable" Document.MeansBoolean false members reply.renewable

/-- The answer is what is written in the one inner record. -/
def Says (members : List (String × Document)) (reply : LoginReply) : Prop :=
  ∃ inner, named "auth" members = [.object inner] ∧ SaysInner inner reply

/-- No member of the name of the inner record is a list. -/
def NoList (members : List (String × Document)) : Prop :=
  ∀ items, ("auth", Document.list items) ∉ members

end LoginReply

/-! ### What documents of one kind mean -/

namespace Json.Document

/-- A document is taken for a text exactly if it means one. -/
theorem text?_eq_some_iff {document : Document} {value : String} :
    document.text? = some value ↔ document.MeansText value := by
  cases document <;> simp [text?, MeansText]

theorem boolean?_eq_some_iff {document : Document} {value : Bool} :
    document.boolean? = some value ↔ document.MeansBoolean value := by
  cases document <;> simp [boolean?, MeansBoolean]

/-- A document is taken for a word exactly if it is a whole number that 64 bits hold. -/
theorem word?_eq_some_iff {document : Document} {value : UInt64} :
    document.word? = some value ↔ document.MeansWord value := by
  cases document with
  | number numeral =>
    show numeral.word? = _ ↔ _
    unfold Numeral.word?
    constructor
    · intro isWord
      split at isWord
      · rename_i whole
        obtain ⟨unsigned, noFraction, noExponent, fits⟩ := whole
        cases isWord
        exact ⟨numeral, rfl, ⟨unsigned, noFraction, noExponent⟩,
          (UInt64.toNat_ofNat_of_lt' fits).symm⟩
      · cases isWord
    · rintro ⟨_, ⟨⟩, ⟨unsigned, noFraction, noExponent⟩, same⟩
      have fits : digitsValue numeral.whole < Nat.pow 2 64 := same ▸ value.toNat_lt
      rw [if_pos ⟨unsigned, noFraction, noExponent, fits⟩, same, UInt64.ofNat_toNat]
  | _ => exact iff_of_false nofun (by rintro ⟨_, ⟨⟩, -⟩)

theorem mapM_text?_eq_some_iff {items : List Document} {values : List String} :
    items.mapM text? = some values ↔ items = values.map .text := by
  induction items generalizing values with
  | nil => simp [eq_comm]
  | cons item items inductionHypothesis =>
    rw [List.mapM_cons]
    cases values with
    | nil => simp [Option.bind_eq_some_iff]
    | cons value values =>
      simp [Option.bind_eq_some_iff, text?_eq_some_iff, MeansText, inductionHypothesis]

theorem texts?_eq_some_iff {document : Document} {values : List String} :
    document.texts? = some values ↔ document.MeansTexts values := by
  cases document with
  | list items =>
    show items.mapM text? = _ ↔ _
    rw [mapM_text?_eq_some_iff, MeansTexts, list.injEq]
  | _ => exact iff_of_false nofun nofun

/-- What an object means under a key is what the last member of this name means. -/
theorem get?_setAll (members : List (String × Document)) (entries : Entries Json) (key : String) :
    (entries.setAll (membersJson members)).get? key =
      ((named key members).getLast?.map json).or (entries.get? key) := by
  induction members generalizing entries with
  | nil => rfl
  | cons entry members inductionHypothesis =>
    obtain ⟨name, document⟩ := entry
    show ((entries.set name document.json).setAll (membersJson members)).get? key = _
    rw [inductionHypothesis, Entries.get?_set]
    by_cases same : name = key
    · rw [named_cons_of_eq same, List.getLast?_cons, if_pos same]
      cases (named key members).getLast? <;> rfl
    · rw [named_cons_of_ne same, if_neg same]

theorem ascending_setAll (members : List (String × Json)) {entries : Entries Json}
    (ascending : entries.Ascending) : (entries.setAll members).Ascending := by
  induction members generalizing entries with
  | nil => exact ascending
  | cons entry members inductionHypothesis => exact inductionHypothesis (ascending.set _ _)

/-- An object means its members, and null means that there are none. -/
theorem meansEntries_of_orNull? {document : Document} {given : Option (Entries Json)}
    (means : document.orNull? entries? = some given) : document.MeansEntries given := by
  cases document with
  | null =>
    cases means
    exact .inl ⟨rfl, rfl⟩
  | object members =>
    cases means
    refine .inr ⟨members, _, rfl, rfl, ascending_setAll _ List.Pairwise.nil, fun key => ?_⟩
    rw [get?_setAll]
    exact Option.or_none
  | _ => cases means

/-! ### Kinds of values, as they are read -/

theorem exists_orNull?_iff (document : Document) :
    (∃ given, document.orNull? entries? = some given) ↔ document.IsNullOrObject := by
  cases document with
  | null => exact iff_of_true ⟨_, rfl⟩ (.inl rfl)
  | object members => exact iff_of_true ⟨_, rfl⟩ (.inr ⟨members, rfl⟩)
  | _ => exact iff_of_false nofun (by rintro (⟨⟨⟩⟩ | ⟨_, ⟨⟩⟩))

theorem exists_text?_iff (document : Document) :
    (∃ value, document.text? = some value) ↔ document.IsText :=
  exists_congr fun _ => text?_eq_some_iff

theorem exists_boolean?_iff (document : Document) :
    (∃ value, document.boolean? = some value) ↔ document.IsBoolean :=
  exists_congr fun _ => boolean?_eq_some_iff

theorem exists_word?_iff (document : Document) :
    (∃ value, document.word? = some value) ↔ document.IsWord := by
  simp only [word?_eq_some_iff]
  constructor
  · rintro ⟨value, numeral, rfl, unsigned, same⟩
    have small := value.toNat_lt
    exact ⟨numeral, rfl, unsigned, same ▸ Nat.le_pred_of_lt small⟩
  · rintro ⟨numeral, rfl, unsigned, small⟩
    refine ⟨UInt64.ofNat (digitsValue numeral.whole), numeral, rfl, unsigned, ?_⟩
    exact (UInt64.toNat_ofNat_of_lt' (Nat.lt_of_le_pred (Nat.two_pow_pos 64) small)).symm

theorem exists_map_text {items : List Document} (areTexts : ∀ item ∈ items, IsText item) :
    ∃ values : List String, items = values.map .text := by
  induction items with
  | nil => exact ⟨[], rfl⟩
  | cons item items inductionHypothesis =>
    obtain ⟨⟨value, rfl⟩, others⟩ := List.forall_mem_cons.mp areTexts
    obtain ⟨values, rfl⟩ := inductionHypothesis others
    exact ⟨value :: values, rfl⟩

theorem exists_texts?_iff (document : Document) :
    (∃ values, document.texts? = some values) ↔ document.IsTexts := by
  simp only [texts?_eq_some_iff]
  constructor
  · rintro ⟨values, rfl⟩
    refine ⟨_, rfl, fun item member => ?_⟩
    obtain ⟨value, -, rfl⟩ := List.mem_map.mp member
    exact ⟨value, rfl⟩
  · rintro ⟨items, rfl, areTexts⟩
    obtain ⟨values, rfl⟩ := exists_map_text areTexts
    exact ⟨values, rfl⟩

end Json.Document

/-! ### Fields, as they are read -/

namespace Json

section

variable {value : Type} {meaning : Document → Option value} {name : String}
  {members : List (String × Document)} {kind : Document → Prop}

/-- A slot can be filled if what has its name is there at most once and is of its kind. -/
theorem exists_filled?_iff (kinds : ∀ document, (∃ given, meaning document = some given) ↔
    kind document) : (∃ held, filled? meaning (named name members) = some held) ↔
      AtMostOnce name kind members := by
  constructor
  · rintro ⟨held, isHeld⟩
    rcases filled?_eq_some_iff.mp isHeld with ⟨nothing, -⟩ | ⟨only, given, single, means, -⟩
    · exact .inl nothing
    · exact .inr ⟨only, single, (kinds only).mp ⟨given, means⟩⟩
  · rintro (nothing | ⟨only, single, isKind⟩)
    · exact ⟨none, filled?_eq_some_iff.mpr (.inl ⟨nothing, rfl⟩)⟩
    · obtain ⟨given, means⟩ := (kinds only).mpr isKind
      exact ⟨some given, filled?_eq_some_iff.mpr (.inr ⟨only, given, single, means, rfl⟩)⟩

/-- A slot is filled if what has its name is there once and is of its kind. -/
theorem exists_filled?_some_iff (kinds : ∀ document, (∃ given, meaning document = some given) ↔
    kind document) : (∃ given, filled? meaning (named name members) = some (some given)) ↔
      Once name kind members := by
  constructor
  · rintro ⟨given, isHeld⟩
    rcases filled?_eq_some_iff.mp isHeld with ⟨-, ⟨⟩⟩ | ⟨only, given, single, means, -⟩
    exact ⟨only, single, (kinds only).mp ⟨given, means⟩⟩
  · rintro ⟨only, single, isKind⟩
    obtain ⟨given, means⟩ := (kinds only).mpr isKind
    exact ⟨given, filled?_eq_some_iff.mpr (.inr ⟨only, given, single, means, rfl⟩)⟩

/-- A field has the value in the text, or its default. -/
theorem gives_of_filled? {means : Document → value → Prop}
    (meant : ∀ {document given}, meaning document = some given → means document given)
    {held : Option value} (isHeld : filled? meaning (named name members) = some held)
    (default : value) : GivenOrDefault name means default members (held.getD default) := by
  rcases filled?_eq_some_iff.mp isHeld with ⟨nothing, rfl⟩ | ⟨only, given, single, isMeant, rfl⟩
  · exact .inl ⟨nothing, rfl⟩
  · exact .inr ⟨only, single, meant isMeant⟩

theorem once_of_filled? {means : Document → value → Prop}
    (meant : ∀ {document given}, meaning document = some given → means document given)
    {given : value} (isHeld : filled? meaning (named name members) = some (some given)) :
    Once name (fun document => means document given) members := by
  rcases filled?_eq_some_iff.mp isHeld with ⟨-, ⟨⟩⟩ | ⟨only, _, single, isMeant, ⟨⟩⟩
  exact ⟨only, single, meant isMeant⟩

end

/-! ### What is read depends on the meaning of the fields alone -/

/-- The text of a value that is one. -/
def asBoolean? : Json → Option Bool
  | boolean value => some value
  | _ => none

/-- The whole number of a value that is one that 64 bits hold. -/
def asWord? : Json → Option UInt64
  | integer value => if 0 ≤ value then some (UInt64.ofNat value.toNat) else none
  | _ => none

/-- The texts of a value that is a list of them. -/
def asTexts? : Json → Option (List String)
  | list items => items.mapM asText?
  | _ => none

/-- The members of a value that is an object, or nothing where it is null. -/
def asEntries? : Json → Option (Option (Entries Json))
  | null => some none
  | object members => some (some members)
  | _ => none

namespace Document

theorem text?_eq (document : Document) : document.text? = document.json.asText? := by
  cases document with
  | number numeral =>
    show none = _
    rw [json]
    split <;> rfl
  | _ => rfl

theorem boolean?_eq (document : Document) : document.boolean? = document.json.asBoolean? := by
  cases document with
  | number numeral =>
    show none = _
    rw [json]
    split <;> rfl
  | _ => rfl

theorem word?_eq (document : Document) : document.word? = document.json.asWord? := by
  cases document with
  | number numeral =>
    show numeral.word? = _
    rw [json, Numeral.word?_eq, Numeral.integer?_of_number?]
    split <;> rename_i isNumber <;> rw [isNumber] <;> rfl
  | _ => rfl

theorem mapM_text?_eq (items : List Document) :
    items.mapM text? = (itemsJson items).mapM asText? := by
  induction items with
  | nil => rfl
  | cons item items inductionHypothesis =>
    rw [itemsJson, List.mapM_cons, List.mapM_cons, inductionHypothesis, text?_eq]

theorem texts?_eq (document : Document) : document.texts? = document.json.asTexts? := by
  cases document with
  | number numeral =>
    show none = _
    rw [json]
    split <;> rfl
  | list items => exact mapM_text?_eq items
  | _ => rfl

/-- The members of an object are the same in the document and in the data it stands for. -/
theorem orNull?_eq {document : Document} {levels : Nat}
    (fits : document.Fits Numeral.Finite levels) :
    document.orNull? entries? = document.json.asEntries? := by
  cases fits with
  | @number _ numeral finite =>
    obtain ⟨number, isNumber⟩ := Option.isSome_iff_exists.mp finite
    show none = _
    rw [json, isNumber]
    cases number <;> rfl
  | _ => rfl

end Document

theorem fits_of_mem_named {admitted : Numeral → Prop} {levels : Nat} {name : String}
    {members : List (String × Document)}
    (fits : (Document.object members).Fits admitted (levels + 1)) :
    ∀ document ∈ named name members, document.Fits admitted levels := by
  cases fits with
  | object fit =>
    intro document member
    obtain ⟨entry, isEntry, rfl⟩ := List.mem_map.mp member
    exact fit entry (List.mem_filter.mp isEntry).1

end Json

namespace SecretReply

variable {members others : List (String × Document)} {bytes otherBytes : List UInt8}
  {reply : SecretReply}

theorem parse_eq_ok_iff (text : ObjectText Numeral.Finite members bytes) :
    parse bytes = .ok reply ↔
      ∃ fields, members.foldlM (Slot.take? slots) {} = some fields ∧ fields.complete = reply := by
  rw [← toOption_eq_some_iff, toOption_parse text, Option.map_eq_some_iff]

theorem empty_slots : ∀ slot ∈ slots, slot.get {} = none := by
  simp [slots]

/-- An object is accepted just where its known fields are as they have to be. -/
theorem exists_parse_iff (text : ObjectText Numeral.Finite members bytes) :
    (∃ reply, parse bytes = .ok reply) ↔ Shaped members := by
  have accepted : (∃ reply, parse bytes = .ok reply) ↔
      ∃ fields, members.foldlM (Slot.take? slots) {} = some fields := by
    constructor
    · rintro ⟨reply, parsed⟩
      obtain ⟨fields, taken, -⟩ := (parse_eq_ok_iff text).mp parsed
      exact ⟨fields, taken⟩
    · rintro ⟨fields, taken⟩
      exact ⟨fields.complete, (parse_eq_ok_iff text).mpr ⟨fields, taken, rfl⟩⟩
  rw [accepted, lawful_slots.exists_foldlM_iff empty_slots]
  simp only [slots, List.forall_mem_cons, List.not_mem_nil, false_imp_iff, implies_true, and_true]
  exact and_congr (exists_filled?_iff Document.exists_orNull?_iff)
    (and_congr (exists_filled?_iff Document.exists_text?_iff)
      (and_congr (exists_filled?_iff Document.exists_word?_iff)
        (exists_filled?_iff Document.exists_boolean?_iff)))

/-- What is read is what is written. -/
theorem says_of_parse (text : ObjectText Numeral.Finite members bytes)
    (parsed : parse bytes = .ok reply) : Says members reply := by
  obtain ⟨fields, taken, rfl⟩ := (parse_eq_ok_iff text).mp parsed
  have held := (lawful_slots.foldlM_eq_some_iff empty_slots).mp taken
  simp only [slots, List.forall_mem_cons] at held
  obtain ⟨data, leaseId, leaseSeconds, renewable, -⟩ := held
  exact {
    data := gives_of_filled? Document.meansEntries_of_orNull? data none
    leaseId := gives_of_filled? Document.text?_eq_some_iff.mp leaseId ""
    leaseSeconds := gives_of_filled? Document.word?_eq_some_iff.mp leaseSeconds 0
    renewable := gives_of_filled? Document.boolean?_eq_some_iff.mp renewable false }

/-- Another object whose known fields mean the same is read as the same answer. -/
theorem parse_of_same (text : ObjectText Numeral.Finite members bytes)
    (otherText : ObjectText Numeral.Finite others otherBytes)
    (same : ∀ name ∈ names, ((named name members).map Document.json).Perm
      ((named name others).map Document.json)) (parsed : parse bytes = .ok reply) :
    parse otherBytes = .ok reply := by
  obtain ⟨fields, taken, complete⟩ := (parse_eq_ok_iff text).mp parsed
  refine (parse_eq_ok_iff otherText).mpr ⟨fields, ?_, complete⟩
  have held := (lawful_slots.foldlM_eq_some_iff empty_slots).mp taken
  rw [lawful_slots.foldlM_eq_some_iff empty_slots]
  simp only [names, slots, List.forall_mem_cons] at same held ⊢
  obtain ⟨sameData, sameLeaseId, sameLeaseSeconds, sameRenewable, -⟩ := same
  obtain ⟨data, leaseId, leaseSeconds, renewable, -⟩ := held
  refine ⟨?_, filled?_eq_of_perm Document.text?_eq sameLeaseId leaseId,
    filled?_eq_of_perm Document.word?_eq sameLeaseSeconds leaseSeconds,
    filled?_eq_of_perm Document.boolean?_eq sameRenewable renewable, List.forall_mem_nil _⟩
  rw [← data]
  exact filled?_of_perm
    (fun _ member => Document.orNull?_eq (fits_of_mem_named otherText.2 _ member))
    (fun _ member => Document.orNull?_eq (fits_of_mem_named text.2 _ member)) sameData.symm

end SecretReply

namespace LoginReply

variable {members others : List (String × Document)} {bytes otherBytes : List UInt8}
  {reply : LoginReply}

theorem empty_slots : ∀ slot ∈ slots, slot.get {} = none := by
  simp [slots]

theorem empty_outerSlots : ∀ slot ∈ outerSlots, slot.get none = none := by
  simp [outerSlots]

theorem kind_ne_list (noList : NoList members) :
    ∀ entry ∈ members, entry.1 = "auth" → entry.2.kind ≠ .list := by
  rintro ⟨_, document⟩ member rfl isList
  cases document with
  | list items => exact noList items member
  | _ => cases isList

/-- What is inside is an object whose members fill the slots. -/
theorem inner?_eq_some_iff {document : Document} : inner? document = some reply ↔
    ∃ inner, document = .object inner ∧
      (inner.foldlM (Slot.take? slots) {}).bind complete? = some reply := by
  cases document with
  | object inner => exact ⟨fun means => ⟨inner, rfl, means⟩, by rintro ⟨_, ⟨⟩, means⟩; exact means⟩
  | _ => exact iff_of_false nofun (by rintro ⟨_, ⟨⟩, -⟩)

/-- A reply is complete if nothing is missing that has no default. -/
theorem complete?_eq_some_iff {fields : Fields} : complete? fields = some reply ↔
    fields.token = some reply.token ∧ fields.policies.getD [] = reply.policies ∧
      fields.leaseSeconds = some reply.leaseSeconds ∧
      fields.renewable.getD false = reply.renewable := by
  obtain ⟨token, policies, leaseSeconds, renewable⟩ := fields
  obtain ⟨replyToken, replyPolicies, replySeconds, replyRenewable⟩ := reply
  cases token <;> cases leaseSeconds <;> simp [complete?]

/-- An answer is read from the one object under the name of the inner record. -/
theorem parse_eq_ok_iff (text : ObjectText Numeral.Finite members bytes) (noList : NoList members) :
    parse bytes = .ok reply ↔ ∃ inner fields, named "auth" members = [.object inner] ∧
      inner.foldlM (Slot.take? slots) {} = some fields ∧ complete? fields = some reply := by
  have outer : (members.foldlM (Slot.take? outerSlots) none).bind id = some reply ↔
      filled? inner? (named "auth" members) = some (some reply) := by
    rw [Option.bind_eq_some_iff]
    simp only [id, exists_eq_right]
    rw [lawful_outerSlots.foldlM_eq_some_iff empty_outerSlots]
    simp only [outerSlots, List.forall_mem_singleton, id]
  rw [← toOption_eq_some_iff, toOption_parse text (kind_ne_list noList), outer, filled?_eq_some_iff]
  simp only [inner?_eq_some_iff, Option.bind_eq_some_iff]
  constructor
  · rintro (⟨-, ⟨⟩⟩ | ⟨_, _, single, ⟨inner, rfl, fields, taken, complete⟩, ⟨⟩⟩)
    exact ⟨inner, fields, single, taken, complete⟩
  · rintro ⟨inner, fields, single, taken, complete⟩
    exact .inr ⟨_, reply, single, ⟨inner, rfl, fields, taken, complete⟩, rfl⟩

/-- An object is accepted just where its inner record is as it has to be. -/
theorem exists_parse_iff (text : ObjectText Numeral.Finite members bytes)
    (noList : NoList members) : (∃ reply, parse bytes = .ok reply) ↔ Shaped members := by
  simp only [parse_eq_ok_iff text noList]
  constructor
  · rintro ⟨reply, inner, fields, single, taken, complete⟩
    have held := (lawful_slots.foldlM_eq_some_iff empty_slots).mp taken
    simp only [slots, List.forall_mem_cons] at held
    obtain ⟨token, policies, leaseSeconds, renewable, -⟩ := held
    obtain ⟨isToken, -, isLease, -⟩ := complete?_eq_some_iff.mp complete
    rw [isToken] at token
    rw [isLease] at leaseSeconds
    exact ⟨_, single, inner, rfl,
      (exists_filled?_some_iff Document.exists_text?_iff).mp ⟨_, token⟩,
      (exists_filled?_some_iff Document.exists_word?_iff).mp ⟨_, leaseSeconds⟩,
      (exists_filled?_iff Document.exists_texts?_iff).mp ⟨_, policies⟩,
      (exists_filled?_iff Document.exists_boolean?_iff).mp ⟨_, renewable⟩⟩
  · rintro ⟨_, single, inner, rfl, isToken, isLease, isPolicies, isRenewable⟩
    obtain ⟨token, heldToken⟩ := (exists_filled?_some_iff Document.exists_text?_iff).mpr isToken
    obtain ⟨lease, heldLease⟩ := (exists_filled?_some_iff Document.exists_word?_iff).mpr isLease
    obtain ⟨policies, heldPolicies⟩ :=
      (exists_filled?_iff Document.exists_texts?_iff).mpr isPolicies
    obtain ⟨renewable, heldRenewable⟩ :=
      (exists_filled?_iff Document.exists_boolean?_iff).mpr isRenewable
    refine ⟨⟨token, policies.getD [], lease, renewable.getD false⟩, inner,
      ⟨some token, policies, some lease, renewable⟩, single, ?_, rfl⟩
    rw [lawful_slots.foldlM_eq_some_iff empty_slots]
    simp only [slots, List.forall_mem_cons]
    exact ⟨heldToken, heldPolicies, heldLease, heldRenewable, List.forall_mem_nil _⟩

/-- What is read is what is written. -/
theorem says_of_parse (text : ObjectText Numeral.Finite members bytes) (noList : NoList members)
    (parsed : parse bytes = .ok reply) : Says members reply := by
  obtain ⟨inner, fields, single, taken, complete⟩ := (parse_eq_ok_iff text noList).mp parsed
  have held := (lawful_slots.foldlM_eq_some_iff empty_slots).mp taken
  simp only [slots, List.forall_mem_cons] at held
  obtain ⟨token, policies, leaseSeconds, renewable, -⟩ := held
  obtain ⟨isToken, isPolicies, isLease, isRenewable⟩ := complete?_eq_some_iff.mp complete
  rw [isToken] at token
  rw [isLease] at leaseSeconds
  refine ⟨inner, single, {
    token := once_of_filled? Document.text?_eq_some_iff.mp token
    leaseSeconds := once_of_filled? Document.word?_eq_some_iff.mp leaseSeconds
    policies := ?_
    renewable := ?_ }⟩
  · rw [← isPolicies]
    exact gives_of_filled? Document.texts?_eq_some_iff.mp policies []
  · rw [← isRenewable]
    exact gives_of_filled? Document.boolean?_eq_some_iff.mp renewable false

/-- Two objects have one inner record each, and its known fields mean the same in both. -/
def SameInner (members others : List (String × Document)) : Prop :=
  ∃ inner otherInner, named "auth" members = [.object inner] ∧
    named "auth" others = [.object otherInner] ∧
    ∀ name ∈ names, ((named name inner).map Document.json).Perm
      ((named name otherInner).map Document.json)

/-- Another object whose known fields mean the same is read as the same answer. -/
theorem parse_of_same (text : ObjectText Numeral.Finite members bytes)
    (otherText : ObjectText Numeral.Finite others otherBytes) (noList : NoList members)
    (otherNoList : NoList others) (same : SameInner members others)
    (parsed : parse bytes = .ok reply) : parse otherBytes = .ok reply := by
  obtain ⟨inner, fields, single, taken, complete⟩ := (parse_eq_ok_iff text noList).mp parsed
  obtain ⟨inner, otherInner, isInner, isOther, sameFields⟩ := same
  cases single.symm.trans isInner
  refine (parse_eq_ok_iff otherText otherNoList).mpr
    ⟨otherInner, fields, isOther, ?_, complete⟩
  have held := (lawful_slots.foldlM_eq_some_iff empty_slots).mp taken
  rw [lawful_slots.foldlM_eq_some_iff empty_slots]
  simp only [names, slots, List.forall_mem_cons] at sameFields held ⊢
  obtain ⟨sameToken, samePolicies, sameLeaseSeconds, sameRenewable, -⟩ := sameFields
  obtain ⟨token, policies, leaseSeconds, renewable, -⟩ := held
  exact ⟨filled?_eq_of_perm Document.text?_eq sameToken token,
    filled?_eq_of_perm Document.texts?_eq samePolicies policies,
    filled?_eq_of_perm Document.word?_eq sameLeaseSeconds leaseSeconds,
    filled?_eq_of_perm Document.boolean?_eq sameRenewable renewable, List.forall_mem_nil _⟩

end LoginReply

/-! ### Both kinds of replies -/

/-- For every object in which no number leaves the finite ones while it is read: the answer to a
read request is read just where each known field occurs once at most and has its kind, and the
answer to a login, unless its inner record is a list, just where that record occurs once and has the
fields it cannot do without. What is read is what is written or a default, and another object whose
known fields mean the same is read as the same answer. -/
theorem replies_are_read_by_name :
    (∀ members bytes, ObjectText Numeral.Finite members bytes →
      ((∃ reply, SecretReply.parse bytes = .ok reply) ↔ SecretReply.Shaped members) ∧
      (∀ reply, SecretReply.parse bytes = .ok reply → SecretReply.Says members reply) ∧
      (LoginReply.NoList members →
        ((∃ reply, LoginReply.parse bytes = .ok reply) ↔ LoginReply.Shaped members) ∧
        ∀ reply, LoginReply.parse bytes = .ok reply → LoginReply.Says members reply)) ∧
    (∀ members bytes others otherBytes, ObjectText Numeral.Finite members bytes →
      ObjectText Numeral.Finite others otherBytes →
      ((∀ name ∈ SecretReply.names, ((named name members).map Document.json).Perm
          ((named name others).map Document.json)) →
        ∀ reply, SecretReply.parse bytes = .ok reply → SecretReply.parse otherBytes = .ok reply) ∧
      (LoginReply.NoList members → LoginReply.NoList others → LoginReply.SameInner members others →
        ∀ reply, LoginReply.parse bytes = .ok reply → LoginReply.parse otherBytes = .ok reply)) :=
  ⟨fun _ _ text => ⟨SecretReply.exists_parse_iff text, fun _ => SecretReply.says_of_parse text,
      fun noList => ⟨LoginReply.exists_parse_iff text noList,
        fun _ => LoginReply.says_of_parse text noList⟩⟩,
    fun _ _ _ _ text otherText => ⟨fun same _ => SecretReply.parse_of_same text otherText same,
      fun noList otherNoList same _ =>
        LoginReply.parse_of_same text otherText noList otherNoList same⟩⟩

namespace Json

/-- A character stands in a text for itself. -/
def standsForItself (char : Char) : Bool :=
  decide (0x20 ≤ char.toNat ∧ char ≠ '"' ∧ char ≠ '\\')

/-- A text of plain characters is written as it is. -/
theorem writesText_plain (text : String) (plain : text.toList.all standsForItself = true) :
    WritesText text
      (byteOf '"' :: (text.toList.flatMap String.utf8EncodeChar ++ [byteOf '"'])) := by
  refine .quoted ?_
  generalize text.toList = chars at plain
  induction chars with
  | nil => exact .nil
  | cons char chars inductionHypothesis =>
    rw [List.all_cons, Bool.and_eq_true] at plain
    obtain ⟨isPlain, others⟩ := plain
    obtain ⟨notControl, notQuote, notBackslash⟩ := of_decide_eq_true isPlain
    exact .cons (.plain notControl notQuote notBackslash) (inductionHypothesis others)

/-- A member without blanks around its parts. -/
theorem writesMember_plain (key : String) {document : Document} {bytes : List UInt8}
    (plain : key.toList.all standsForItself = true)
    (written : Writes document bytes) : WritesMember (key, document)
      ([] ++ ((byteOf '"' :: (key.toList.flatMap String.utf8EncodeChar ++ [byteOf '"'])) ++
        ([] ++ byteOf ':' :: ([] ++ (bytes ++ []))))) :=
  .member Blanks.nil (writesText_plain key plain) Blanks.nil (.item Blanks.nil written Blanks.nil)

end Json

namespace LoginReply

/-- The numeral of one digit. -/
def one : Numeral where
  negative := false
  whole := [1]
  whole_ne_nil := nofun
  whole_of_zero := nofun
  exponent_ne_nil := by rintro _ ⟨⟩

/-- The members of a small answer to a login. -/
def smallMembers : List (String × Document) :=
  [("auth", .object [("client_token", .text "t"), ("lease_duration", .number one)])]

/-- A small answer to a login. -/
def smallText : List UInt8 :=
  "\x7b\"auth\":\x7b\"client_token\":\"t\",\"lease_duration\":1\x7d\x7d".toList.map byteOf

theorem writes_smallText : Writes (.object smallMembers) smallText := by
  have token : Writes (.text "t") _ := .text (writesText_plain "t" rfl)
  have lease : Writes (.number one) _ := .number ⟨.none⟩
  have inner := Writes.object (writesMember_plain "client_token" rfl token)
    (.cons (writesMember_plain "lease_duration" rfl lease) .nil)
  exact Writes.object (writesMember_plain "auth" rfl inner) .nil

theorem fits_smallMembers : (Document.object smallMembers).Fits Numeral.Finite 127 := by
  have finite : one.number?.isSome = true := by decide
  refine .object (List.forall_mem_singleton.mpr (.object ?_))
  exact List.forall_mem_cons.mpr ⟨.text, List.forall_mem_singleton.mpr (.number finite)⟩

theorem objectText_smallText {blanks : List UInt8} (blank : Blanks blanks) :
    ObjectText Numeral.Finite smallMembers (blanks ++ smallText) := by
  have written := WritesItem.item blank writes_smallText Blanks.nil
  rw [List.append_nil] at written
  exact ⟨written, fits_smallMembers⟩

theorem shaped_smallMembers : Shaped smallMembers :=
  ⟨_, rfl, _, rfl, ⟨_, rfl, _, rfl⟩, ⟨_, rfl, one, rfl, ⟨rfl, rfl, rfl⟩, by decide⟩, .inl rfl,
    .inl rfl⟩

theorem noList_smallMembers : NoList smallMembers := by
  intro items member
  cases List.mem_singleton.mp member

end LoginReply

section

open LoginReply

/-- A small answer to a login is read with its token, whatever blank stands in front of it. As an
answer to a read request it has none of the fields. -/
theorem replies_are_read_by_name_of_small :
    (∃ reply, SecretReply.parse smallText = .ok reply ∧ SecretReply.Says smallMembers reply ∧
      SecretReply.parse (byteOf ' ' :: smallText) = .ok reply) ∧
    ∃ reply, LoginReply.parse smallText = .ok reply ∧ LoginReply.Says smallMembers reply ∧
      LoginReply.parse (byteOf ' ' :: smallText) = .ok reply := by
  have text : ObjectText Numeral.Finite smallMembers smallText := objectText_smallText Blanks.nil
  have blankText : ObjectText Numeral.Finite smallMembers (byteOf ' ' :: smallText) :=
    objectText_smallText (List.forall_mem_singleton.mpr rfl)
  obtain ⟨secretAccepted, secretSays, login⟩ := replies_are_read_by_name.1 _ _ text
  obtain ⟨loginAccepted, loginSays⟩ := login noList_smallMembers
  obtain ⟨secretSame, loginSame⟩ := replies_are_read_by_name.2 _ _ _ _ text blankText
  obtain ⟨secret, isSecret⟩ := secretAccepted.mpr ⟨.inl rfl, .inl rfl, .inl rfl, .inl rfl⟩
  obtain ⟨reply, isReply⟩ := loginAccepted.mpr shaped_smallMembers
  exact ⟨⟨secret, isSecret, secretSays _ isSecret,
      secretSame (fun _ _ => List.Perm.refl _) _ isSecret⟩,
    reply, isReply, loginSays _ isReply, loginSame noList_smallMembers noList_smallMembers
      ⟨_, _, rfl, rfl, fun _ _ => List.Perm.refl _⟩ _ isReply⟩

end

/-! ### Numbers just below the greatest one -/

namespace Json

/-- The power of ten that a number is multiplied with, and the one it is divided by. -/
def Numeral.powers (numeral : Numeral) : Nat × Nat :=
  match numeral.exponent with
  | none => (0, numeral.fraction.length)
  | some (false, digits) => (digitsValue digits, numeral.fraction.length)
  | some (true, digits) => (0, numeral.fraction.length + digitsValue digits)

/-- The value of a number lies among the finite floating-point numbers. -/
def Numeral.InRange (numeral : Numeral) : Prop :=
  digitsValue (numeral.whole ++ numeral.fraction) * Nat.pow 10 numeral.powers.1 ≤
    (Nat.pow 2 53 - 1) * Nat.pow 2 971 * Nat.pow 10 numeral.powers.2

instance (numeral : Numeral) : Decidable numeral.InRange := Nat.decLe _ _

end Json

namespace SecretReply

/-- A number just below the greatest finite one. -/
def nearGreatest : Numeral where
  negative := false
  whole := [1, 7, 9, 7, 6, 9, 3, 1, 3, 4, 8, 6, 2, 3, 1, 5, 6, 2, 2, 5]
  exponent := some (false, [2, 8, 9])
  whole_ne_nil := nofun
  whole_of_zero := nofun
  exponent_ne_nil := by rintro _ ⟨⟩; exact nofun

/-- A payload that holds it. -/
def nearMembers : List (String × Document) := [("data", .object [("x", .number nearGreatest)])]

/-- An answer with this payload. -/
def nearText : List UInt8 :=
  "\x7b\"data\":\x7b\"x\":17976931348623156225e289\x7d\x7d".toList.map byteOf

theorem writes_nearText : Writes (.object nearMembers) nearText := by
  have exponent : Numeral.WritesExponent nearGreatest.exponent _ := .upward (.inl rfl) (.inl rfl)
  have inner := Writes.object (writesMember_plain "x" rfl (.number ⟨exponent⟩)) .nil
  exact Writes.object (writesMember_plain "data" rfl inner) .nil

theorem objectText_nearText : ObjectText Numeral.InRange nearMembers nearText := by
  have inRange : nearGreatest.InRange := by decide +kernel
  have written := WritesItem.item Blanks.nil writes_nearText Blanks.nil
  rw [List.append_nil] at written
  exact ⟨written, .object (List.forall_mem_singleton.mpr
    (.object (List.forall_mem_singleton.mpr (.number inRange))))⟩

theorem shaped_nearMembers : Shaped nearMembers :=
  ⟨.inr ⟨_, rfl, .inr ⟨_, rfl⟩⟩, .inl rfl, .inl rfl, .inl rfl⟩

/-- The number in this text is within range, and the text is refused. -/
theorem parse_nearText : (parse nearText).toOption.isSome = false := by decide +kernel

end SecretReply

/-- Values in the range of the finite numbers are not enough for an object of the right shape to be
read: digits that are rounded up and a power of ten that is rounded leave the range together. -/
theorem in_range_is_not_enough : ¬∀ members bytes, ObjectText Numeral.InRange members bytes →
    ((∃ reply, SecretReply.parse bytes = .ok reply) ↔ SecretReply.Shaped members) := by
  intro claimed
  obtain ⟨reply, parsed⟩ := (claimed _ _ SecretReply.objectText_nearText).mpr
    SecretReply.shaped_nearMembers
  have refused := SecretReply.parse_nearText
  rw [parsed] at refused
  cases refused

end SecretRenewal
