/-
This file says what the readers of one shape make of a written document. Such a reader takes a text,
a truth value, a whole number, an object or a list of these, and refuses every document of another
shape; so it is told by one function from documents, which gives nothing where the reader refuses.
The members of an object are read one after another, each by its key, so what comes of them is a
fold over the members as they are written.
-/
import SecretRenewal.Proofs.Json.Skipping

namespace SecretRenewal.Json

/-! ### What a document is to a reader -/

namespace Document

/-- The text, if it is one. -/
def text? : Document → Option String
  | text value => some value
  | _ => none

/-- The truth value, if it is one. -/
def boolean? : Document → Option Bool
  | boolean value => some value
  | _ => none

/-- The whole number that 64 bits hold, if it is written as one. -/
def word? : Document → Option UInt64
  | number numeral => numeral.word?
  | _ => none

/-- What the members of an object mean, if it is one. -/
def entries? : Document → Option (Entries Json)
  | object members => some (Entries.setAll [] (membersJson members))
  | _ => none

/-- What a document is to a reader that also takes null. -/
def orNull? {value : Type} (meaning : Document → Option value) : Document → Option (Option value)
  | null => some none
  | document => (meaning document).map some

/-- The texts of a list of texts, if it is one. -/
def texts? : Document → Option (List String)
  | list items => items.mapM text?
  | _ => none

end Document

namespace Numeral

variable {numeral : Numeral}

/-- A number is read as a whole number just where it is one that 64 bits hold. -/
theorem integer?_of_number? : numeral.integer? = numeral.number?.bind fun number =>
    match number with
    | .integer value => some value
    | .real _ => none := by
  unfold number?
  cases numeral.integer? with
  | some value => rfl
  | none => cases numeral.magnitude? <;> rfl

theorem word?_eq : numeral.word? = numeral.integer?.bind fun value =>
    if 0 ≤ value then some (UInt64.ofNat value.toNat) else none := by
  unfold word? integer?
  by_cases integral : numeral.fraction = [] ∧ numeral.exponent = none
  · rw [if_pos integral]
    simp only [integral.1, integral.2, true_and]
    cases numeral.negative with
    | false =>
      simp only [true_and, if_true]
      by_cases fits : digitsValue numeral.whole < Nat.pow 2 64
      · rw [if_pos fits, if_pos fits, Option.bind_some, if_pos (Int.natCast_nonneg _),
          Int.toNat_natCast]
      · rw [if_neg fits, if_neg fits]
        rfl
    | true =>
      simp only [reduceCtorEq, false_and, if_false]
      split
      · rename_i within
        rw [Option.bind_some, if_neg (by omega)]
      · rfl
  · rw [if_neg integral, if_neg fun whole => integral ⟨whole.2.1, whole.2.2.1⟩]
    rfl

end Numeral

/-- The kind of a document. -/
inductive Kind
  /-- The absence of a value. -/
  | null
  /-- A truth value. -/
  | boolean
  /-- A number. -/
  | number
  /-- A text. -/
  | text
  /-- A list. -/
  | list
  /-- An object. -/
  | object
  deriving DecidableEq

/-- The kind of a document. -/
def Document.kind : Document → Kind
  | null => .null
  | boolean _ => .boolean
  | number _ => .number
  | text _ => .text
  | list _ => .list
  | object _ => .object

/-- The kind of the documents that begin with a byte. -/
def kindOf (first : UInt8) : Kind :=
  if first = byteOf 'n' then .null
  else if first = byteOf 't' ∨ first = byteOf 'f' then .boolean
  else if first = byteOf '"' then .text
  else if first = byteOf '[' then .list
  else if first = byteOf '\x7b' then .object
  else .number

theorem kindOf_of_startsNumber {first : UInt8}
    (starts : (decide (first = byteOf '-') || isDigit first) = true) : kindOf first = .number := by
  have notTruth : ¬(first = byteOf 't' ∨ first = byteOf 'f') :=
    not_or.mpr ⟨ne_of_startsNumber starts rfl, ne_of_startsNumber starts rfl⟩
  rw [kindOf, if_neg (ne_of_startsNumber starts rfl), if_neg notTruth,
    if_neg (ne_of_startsNumber starts rfl), if_neg (ne_of_startsNumber starts rfl),
    if_neg (ne_of_startsNumber starts rfl)]

theorem Leads.kindOf_eq {document : Document} {first : UInt8} (leads : Leads document first) :
    kindOf first = document.kind := by
  cases document with
  | boolean value => cases value <;> (rw [show first = _ from leads]; rfl)
  | number => exact kindOf_of_startsNumber leads
  | _ => rw [show first = _ from leads]; rfl

/-- A document of another kind begins with another byte. -/
theorem Leads.ne_of_kind {document : Document} {first byte : UInt8} (leads : Leads document first)
    (differs : decide (kindOf byte = document.kind) = false) : first ≠ byte := by
  rintro rfl
  exact of_decide_eq_false differs leads.kindOf_eq

/-- A document that is no number does not begin like one. -/
theorem Leads.not_startsNumber {document : Document} {first : UInt8} (leads : Leads document first)
    (differs : decide (document.kind = .number) = false) :
    ¬(decide (first = byteOf '-') || isDigit first) = true := fun starts =>
  of_decide_eq_false differs (leads.kindOf_eq.symm.trans (kindOf_of_startsNumber starts))

namespace Reader

/-- A reader comes from some bytes to others with an outcome; without one it fails. -/
def Reads {value : Type} (reader : Reader value) (bytes rest : List UInt8) : Option value → Prop
  | some result => reader bytes = .ok (result, rest)
  | none => Fails reader bytes

section

variable {value other : Type} {reader : Reader value} {bytes middle rest : List UInt8}

theorem Fails.of_ok {next : value → Reader other} {result : value}
    (read : reader bytes = .ok (result, middle)) (fails : Fails (next result) middle) :
    Fails (reader >>= next) bytes := by
  obtain ⟨problem, failed⟩ := fails
  exact ⟨problem, (bind_of_ok read next).trans failed⟩

theorem Reads.of_ok {next : value → Reader other} {result : value} {outcome : Option other}
    (read : reader bytes = .ok (result, middle)) (reads : Reads (next result) middle rest outcome) :
    Reads (reader >>= next) bytes rest outcome := by
  cases outcome with
  | some result => exact (bind_of_ok read next).trans reads
  | none => exact Fails.of_ok read reads

theorem Reads.bind {outcome : Option value} (reads : Reads reader bytes middle outcome)
    {next : value → Reader other} {meaning : value → Option other}
    (after : ∀ result, outcome = some result → Reads (next result) middle rest (meaning result)) :
    Reads (reader >>= next) bytes rest (outcome.bind meaning) := by
  cases outcome with
  | some result => exact Reads.of_ok reads (after result rfl)
  | none => exact Fails.bind reads next

theorem Reads.map {outcome : Option value} (reads : Reads reader bytes rest outcome)
    (change : value → other) :
    Reads (reader >>= fun result => pure (change result)) bytes rest (outcome.map change) := by
  cases outcome with
  | some result => exact bind_of_ok reads _
  | none => exact Fails.bind reads _

/-- What a reader has read is kept while a closing mark is taken off. -/
theorem Reads.closed {outcome : Option value} (reads : Reads reader bytes middle outcome)
    {closing : Reader Unit} (closes : closing middle = .ok ((), rest)) :
    Reads (reader >>= fun result => closing >>= fun _ => pure result) bytes rest outcome := by
  cases outcome with
  | some result => exact Reads.of_ok reads (bind_of_ok closes _)
  | none => exact Fails.bind reads _

end

/-! ### What is found in place of something else -/

/-- A reader that always fails. -/
def Never {value : Type} (reader : Reader value) : Prop := ∀ bytes, Fails reader bytes

section

variable {value other : Type}

theorem Never.bind {reader : Reader other} {next : other → Reader value}
    (never : ∀ result, Never (next result)) : Never (reader >>= next) :=
  fun _ => Fails.of_bind fun result rest _ => never result rest

theorem Never.ite {condition : Prop} [Decidable condition] {first second : Reader value}
    (never : Never first) (otherwise : Never second) :
    Never (if condition then first else second) := by
  split
  · exact never
  · exact otherwise

/-- Whatever is found in place of what was expected, nothing is read. -/
theorem never_wrongType (expected : Expected) : Never (wrongType expected : Reader value) := by
  have said (found : Found) : Never (differ (.wrongType found expected) : Reader value) :=
    fails_differ _
  have found (reader : Reader Found) :
      Never (reader >>= fun found => (differ (.wrongType found expected) : Reader value)) :=
    Never.bind said
  refine Never.bind fun byte => ?_
  refine .ite (.bind fun _ => found _) (.ite (.bind fun _ => found _)
    (.ite (.bind fun _ => found _) (.ite (.bind fun number => ?_)
      (.ite (.bind fun _ => .bind fun _ => found _) (.ite (found _) (.ite (found _) (found _)))))))
  cases number <;> exact found _

end

/-! ### Values of one shape -/

/-- A reader reads a document with an outcome, however it is written. -/
def ReadsAs {value : Type} (reader : Reader value) (document : Document)
    (outcome : Option value) : Prop :=
  ∀ ⦃blanks bytes rest : List UInt8⦄, Blanks blanks → Writes document bytes → Ends rest →
    Reads reader (blanks ++ (bytes ++ rest)) rest outcome

theorem textValue_readsAs (document : Document) : ReadsAs textValue document document.text? := by
  intro blanks bytes rest blank written ends
  obtain ⟨first, -, -, leads, seen⟩ := peekValue_of_writes blank written
  refine Reads.of_ok (seen rest) ?_
  cases document with
  | text value =>
    obtain ⟨inside, chars, split⟩ := WritesText.inside (by cases written; assumption) rest
    rw [show first = byteOf '"' from leads, split]
    exact Reads.of_ok (drop_eq _) (text_of_chars chars rest)
  | _ =>
    rw [if_neg (leads.ne_of_kind rfl)]
    exact never_wrongType _ _

theorem booleanValue_readsAs (document : Document) :
    ReadsAs booleanValue document document.boolean? := by
  intro blanks bytes rest blank written ends
  obtain ⟨first, -, -, leads, seen⟩ := peekValue_of_writes blank written
  refine Reads.of_ok (seen rest) ?_
  cases document with
  | boolean value =>
    cases written
    cases value with
    | true =>
      rw [show first = byteOf 't' from leads]
      exact Reads.of_ok (word_map ['t', 'r', 'u', 'e'] rest) rfl
    | false =>
      rw [show first = byteOf 'f' from leads]
      exact Reads.of_ok (word_map ['f', 'a', 'l', 's', 'e'] rest) rfl
  | _ =>
    rw [if_neg (leads.ne_of_kind rfl), if_neg (leads.ne_of_kind rfl)]
    exact never_wrongType _ _

theorem wordValue_readsAs (document : Document) : ReadsAs wordValue document document.word? := by
  intro blanks bytes rest blank written ends
  obtain ⟨first, inside, cons, leads, seen⟩ := peekValue_of_writes blank written
  refine Reads.of_ok (seen rest) ?_
  cases document with
  | number numeral =>
    obtain ⟨_, _, rfl, starts, read⟩ := signedNumber_of_writes (by cases written; assumption) ends
    cases cons
    rw [if_pos starts]
    show Reads _ _ _ numeral.word?
    rw [Numeral.word?_eq]
    cases isNumber : numeral.number? with
    | none =>
      rw [isNumber] at read
      rw [Numeral.integer?_of_number?, isNumber]
      exact Fails.bind ⟨_, read⟩ _
    | some number =>
      rw [isNumber] at read
      refine Reads.of_ok read ?_
      cases number with
      | real value =>
        rw [Numeral.integer?_of_number?, isNumber]
        exact fails_differ _ _
      | integer value =>
        rw [Numeral.integer?_of_number?, isNumber, Option.bind_some, Option.bind_some]
        by_cases unsigned : 0 ≤ value
        · rw [if_pos unsigned]
          show (if 0 ≤ value then _ else _ : Reader UInt64) _ = _
          rw [if_pos unsigned]
          rfl
        · rw [if_neg unsigned]
          show Fails (if 0 ≤ value then _ else _ : Reader UInt64) _
          rw [if_neg unsigned]
          exact fails_differ _ _
  | _ =>
    rw [if_neg (leads.not_startsNumber rfl)]
    exact never_wrongType _ _

/-- The members of a written object are taken up, up to its closing brace. -/
theorem anyMembers_of_object {members : List (String × Document)} {steps levels : Nat}
    {bytes rest : List UInt8} (written : Writes (.object members) bytes)
    (enough : 2 * bytes.length ≤ steps + 1)
    (fits : (Document.object members).Fits Numeral.Finite (levels + 1)) (ends : Ends rest) :
    ∃ inside middle, bytes = byteOf '\x7b' :: inside ∧
      anyMembers steps (levels + 1) true [] (inside ++ rest) =
        .ok (Entries.setAll [] (Document.membersJson members), middle) ∧
      endOfObject middle = .ok ((), rest) := by
  have whole := anyValue_of_writes written Blanks.nil enough fits ends
  obtain ⟨first, inside, rfl, leads⟩ := written.leads
  cases (show first = byteOf '\x7b' from leads)
  have unrolled : anyValue (steps + 1) (levels + 2) (byteOf '\x7b' :: (inside ++ rest)) =
      (drop >>= fun _ => anyMembers steps (levels + 1) true [] >>= fun members =>
        endOfObject >>= fun _ => pure (Json.object members)) (byteOf '\x7b' :: (inside ++ rest)) :=
    (bind_of_ok (peekValue_cons rfl) _).trans rfl
  obtain ⟨_, _, ⟨⟩, read⟩ := exists_of_bind (unrolled.symm.trans whole)
  obtain ⟨taken, middle, readMembers, closing⟩ := exists_of_bind read
  obtain ⟨_, _, closed, ⟨⟩⟩ := exists_of_bind closing
  exact ⟨inside, middle, rfl, readMembers, closed⟩

/-- An object is read as what its members mean. -/
theorem mapValue_readsAs {levels : Nat} {document : Document}
    (fits : document.Fits Numeral.Finite levels) :
    ReadsAs (mapValue (levels + 1)) document document.entries? := by
  intro blanks bytes rest blank written ends
  obtain ⟨first, _, _, leads, seen⟩ := peekValue_of_writes blank written
  refine Reads.of_ok (seen rest) ?_
  cases fits with
  | @object levels members fit =>
    have enough : 2 * bytes.length ≤ 2 * (bytes.tail ++ rest).length + 2 + 1 := by
      rw [List.length_append, List.length_tail]
      omega
    obtain ⟨inside, middle, rfl, read, closed⟩ :=
      anyMembers_of_object written enough (.object fit) ends
    rw [if_pos (show first = byteOf '\x7b' from leads), nested_eq]
    refine Reads.of_ok (drop_eq _) ?_
    refine Reads.of_ok (enoughSteps_eq _) ?_
    exact Reads.of_ok read (Reads.of_ok closed rfl)
  | _ =>
    rw [if_neg (leads.ne_of_kind rfl)]
    exact never_wrongType _ _

theorem optional_readsAs {value : Type} {present : Reader value} {document : Document}
    {meaning : Document → Option value} (reads : ReadsAs present document (meaning document)) :
    ReadsAs (optional present) document (document.orNull? meaning) := by
  intro blanks bytes rest blank written ends
  have taken := reads Blanks.nil written ends
  obtain ⟨first, inside, rfl, leads⟩ := written.leads
  refine Reads.of_ok (peekAfterBlanks?_of_blanks blank leads.solid) ?_
  cases document with
  | null =>
    cases written
    exact Reads.of_ok (word_map ['n', 'u', 'l', 'l'] rest) rfl
  | _ =>
    rw [if_neg fun same => leads.ne_of_kind rfl (Option.some.inj same)]
    exact taken.map some

/-! ### Lists of values of one shape -/

section

variable {value : Type} {item : Reader value} {meaning : Document → Option value}

theorem itemsFrom_cons {steps : Nat} {first : Bool} {bytes middle after rest : List UInt8}
    {outcome : Option value} {outcomes : Option (List value)}
    (another : anotherItem first bytes = .ok (true, middle))
    (reads : Reads item middle after outcome)
    (others : Reads (itemsFrom item steps false) after rest outcomes) :
    Reads (itemsFrom item (steps + 1) first) bytes rest
      (outcome.bind fun value => outcomes.bind fun values => some (value :: values)) := by
  have taken : Reads (item? first item) bytes after (outcome.map some) :=
    Reads.of_ok another (reads.map some)
  cases outcome with
  | none => exact Fails.bind taken _
  | some result => exact Reads.of_ok taken (others.bind fun _ _ => rfl)

theorem itemsFrom_end {blanks rest : List UInt8} (blank : Blanks blanks) (steps : Nat)
    (first : Bool) : Reads (itemsFrom item (steps + 1) first) (blanks ++ byteOf ']' :: rest)
      (byteOf ']' :: rest) (some []) := by
  have nothing : item? first item (blanks ++ byteOf ']' :: rest) =
      .ok (none, byteOf ']' :: rest) := bind_of_ok (anotherItem_of_end first blank) _
  exact bind_of_ok nothing _

theorem itemsFrom_of_writes (reads : ∀ document, ReadsAs item document (meaning document))
    {items : List Document} {bytes : List UInt8} (written : WritesItems items bytes) {steps : Nat}
    {blanks rest : List UInt8} (blank : Blanks blanks) (enough : bytes.length < steps) :
    Reads (itemsFrom item steps false) (blanks ++ (bytes ++ byteOf ']' :: rest))
      (byteOf ']' :: rest) (items.mapM meaning) := by
  obtain ⟨steps, rfl⟩ := exists_fewer enough
  match written with
  | .nil => exact itemsFrom_end blank steps false
  | .cons (.item blankBefore itemWritten blankAfter) others =>
    simp only [List.length_cons, List.length_append] at enough
    simp only [List.cons_append, List.append_assoc]
    have read := reads _ Blanks.nil itemWritten (blankAfter.ends (others.ends rest))
    rw [List.mapM_cons]
    exact itemsFrom_cons (anotherItem_of_next blank blankBefore itemWritten) read
      (itemsFrom_of_writes reads others blankAfter (by omega))

end

/-- A list of texts is read as these texts. -/
theorem texts_readsAs {levels : Nat} {document : Document}
    (fits : document.Fits Numeral.Finite levels) :
    ReadsAs (sequenceValue (levels + 1) textValue) document document.texts? := by
  intro blanks bytes rest blank written ends
  obtain ⟨first, _, _, leads, seen⟩ := peekValue_of_writes blank written
  refine Reads.of_ok (seen rest) ?_
  cases fits with
  | @list levels items fit =>
    rw [if_pos (show first = byteOf '[' from leads), nested_eq]
    refine Reads.of_ok (drop_eq _) (Reads.of_ok (enoughSteps_eq _) ?_)
    cases written with
    | noItems blankInside =>
      simp only [List.cons_append, List.append_assoc, List.tail_cons, List.nil_append]
      exact (itemsFrom_end blankInside _ true).closed endOfList_cons
    | list itemWritten others =>
      obtain ⟨blankBefore, itemWritten, blankAfter⟩ := itemWritten
      simp only [List.cons_append, List.append_assoc, List.tail_cons, List.nil_append]
      have read := textValue_readsAs _ Blanks.nil itemWritten (blankAfter.ends (others.ends rest))
      refine Reads.closed ?_ endOfList_cons
      show Reads _ _ _ (List.mapM _ _)
      rw [List.mapM_cons]
      refine itemsFrom_cons (anotherItem_of_first blankBefore itemWritten) read
        (itemsFrom_of_writes textValue_readsAs others blankAfter ?_)
      simp only [List.length_cons, List.length_append]
      omega
  | _ =>
    rw [if_neg (leads.ne_of_kind rfl)]
    exact never_wrongType _ _

/-! ### The members of an object -/

/-- A reader reads the value of a member with an outcome, from the colon on. -/
def ReadsMember {value : Type} (reader : Reader value) (document : Document)
    (outcome : Option value) : Prop :=
  ∀ ⦃after blanks bytes rest : List UInt8⦄, Blanks after → Blanks blanks → Writes document bytes →
    Ends rest → Reads reader (after ++ byteOf ':' :: (blanks ++ (bytes ++ rest))) rest outcome

theorem onceField_readsMember {value : Type} {field : Reader value} {document : Document}
    {outcome : Option value} (reads : ReadsAs field document outcome) (name : String)
    (earlier : Option value) : ReadsMember (onceField name earlier field) document
      (if earlier.isSome then none else outcome.map some) := by
  intro after blanks bytes rest blankAfter blank written ends
  unfold onceField
  split
  · exact fails_differ _ _
  · exact Reads.of_ok (colon_of_blanks blankAfter) ((reads blank written ends).map some)

theorem otherField_readsMember (document : Document) :
    ReadsMember otherField document (some ()) := by
  intro after blanks bytes rest blankAfter blank written ends
  exact Reads.of_ok (colon_of_blanks blankAfter) (skip_of_writes blank written ends)

theorem ReadsMember.map {value other : Type} {reader : Reader value} {document : Document}
    {outcome : Option value} (reads : ReadsMember reader document outcome)
    (change : value → other) : ReadsMember (reader >>= fun result => pure (change result)) document
      (outcome.map change) :=
  fun _ _ _ _ blankAfter blank written ends => (reads blankAfter blank written ends).map change

section

variable {state : Type} {member : String → state → Reader state}
  {meaning : state → String × Document → Option state}

theorem foldMembers_cons {key : String} {current : state} {steps : Nat} {first : Bool}
    {bytes middle after rest : List UInt8} {outcome : Option state} {others : state → Option state}
    (another : anotherKey? first bytes = .ok (some key, middle))
    (reads : Reads (member key current) middle after outcome)
    (further : ∀ next, Reads (foldMembers member steps false next) after rest (others next)) :
    Reads (foldMembers member (steps + 1) first current) bytes rest (outcome.bind others) :=
  Reads.of_ok another (reads.bind fun next _ => further next)

/-- The members of an object are folded as they stand. -/
theorem foldMembers_of_writes {members : List (String × Document)}
    (reads : ∀ entry ∈ members, ∀ current,
      ReadsMember (member entry.1 current) entry.2 (meaning current entry))
    {bytes : List UInt8} (written : WritesMembers members bytes) {steps : Nat}
    {blanks rest : List UInt8} (blank : Blanks blanks) (enough : bytes.length < steps)
    (current : state) :
    Reads (foldMembers member steps false current) (blanks ++ (bytes ++ byteOf '\x7d' :: rest))
      (byteOf '\x7d' :: rest) (members.foldlM meaning current) := by
  obtain ⟨steps, rfl⟩ := exists_fewer enough
  match written with
  | .nil => exact Reads.of_ok (anotherKey?_of_end false blank) rfl
  | .cons (.member blankBefore writtenKey blankKey (.item blankValue valueWritten blankAfter))
      others =>
    simp only [List.length_cons, List.length_append] at enough
    simp only [List.cons_append, List.append_assoc]
    obtain ⟨readsFirst, readsOthers⟩ := List.forall_mem_cons.mp reads
    have read := readsFirst current blankKey blankValue valueWritten
      (blankAfter.ends (others.ends rest))
    rw [List.foldlM_cons]
    exact foldMembers_cons (anotherKey?_of_next blank blankBefore writtenKey) read
      (foldMembers_of_writes readsOthers others blankAfter (by omega))

theorem foldMembers_of_object {members : List (String × Document)}
    (reads : ∀ entry ∈ members, ∀ current,
      ReadsMember (member entry.1 current) entry.2 (meaning current entry))
    {bytes : List UInt8} (written : Writes (.object members) bytes) {steps : Nat}
    (enough : bytes.length ≤ steps) (current : state) (rest : List UInt8) :
    Reads (foldMembers member steps true current) (bytes.tail ++ rest) (byteOf '\x7d' :: rest)
      (members.foldlM meaning current) := by
  obtain ⟨steps, rfl⟩ : ∃ fewer, steps = fewer + 1 := by
    obtain ⟨first, inside, rfl, -⟩ := written.leads
    rw [List.length_cons] at enough
    exact exists_fewer enough
  cases written with
  | noMembers blankInside =>
    simp only [List.append_assoc, List.tail_cons, List.singleton_append]
    exact Reads.of_ok (anotherKey?_of_end true blankInside) rfl
  | object memberWritten others =>
    obtain ⟨blankBefore, writtenKey, blankKey, ⟨blankValue, valueWritten, blankAfter⟩⟩ :=
      memberWritten
    simp only [List.length_cons, List.length_append] at enough
    simp only [List.cons_append, List.append_assoc, List.tail_cons, List.nil_append]
    obtain ⟨readsFirst, readsOthers⟩ := List.forall_mem_cons.mp reads
    have read := readsFirst current blankKey blankValue valueWritten
      (blankAfter.ends (others.ends rest))
    rw [List.foldlM_cons]
    exact foldMembers_cons (anotherKey?_of_first blankBefore writtenKey) read
      (foldMembers_of_writes readsOthers others blankAfter (by omega))

end

theorem length_le_enough (bytes rest : List UInt8) :
    bytes.length ≤ 2 * (bytes.tail ++ rest).length + 2 := by
  rw [List.length_append, List.length_tail]
  omega

/-! ### Records -/

section

variable {value : Type} {name : String} {levels : Nat} {fromList fromObject : Nat → Reader value}
  {blanks bytes rest : List UInt8}

theorem record_of_object {members : List (String × Document)} {outcome : Option value}
    (blank : Blanks blanks) (written : Writes (.object members) bytes)
    (reads : Reads (fromObject (levels + 1)) (bytes.tail ++ rest) (byteOf '\x7d' :: rest) outcome) :
    Reads (record name (levels + 2) fromList fromObject) (blanks ++ (bytes ++ rest)) rest
      outcome := by
  obtain ⟨first, inside, rfl, leads⟩ := written.leads
  cases (show first = byteOf '\x7b' from leads)
  refine Reads.of_ok (peekValue_of_blanks blank rfl) ?_
  show Reads (nested (levels + 2) fun depth => drop >>= fun _ => fromObject depth >>= fun result =>
    endOfObject >>= fun _ => pure result) _ _ _
  rw [nested_eq]
  exact Reads.of_ok (drop_eq _) (reads.closed endOfObject_cons)

/-- Neither a list nor an object is no record. -/
theorem record_of_other {document : Document} (blank : Blanks blanks)
    (written : Writes document bytes) (noList : document.kind ≠ .list)
    (noObject : document.kind ≠ .object) (depth : Nat) :
    Fails (record name depth fromList fromObject) (blanks ++ (bytes ++ rest)) := by
  obtain ⟨first, _, _, leads, seen⟩ := peekValue_of_writes blank written
  refine Fails.of_ok (seen rest) ?_
  have notList : first ≠ byteOf '[' :=
    leads.ne_of_kind (decide_eq_false fun same => noList same.symm)
  have notObject : first ≠ byteOf '\x7b' :=
    leads.ne_of_kind (decide_eq_false fun same => noObject same.symm)
  rw [if_neg notList, if_neg notObject]
  exact never_wrongType _ _

end

end Reader

end SecretRenewal.Json
