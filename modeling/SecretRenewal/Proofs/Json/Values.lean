/-
This file proves that a written document is read as the data it means. The proof follows the way
the document is written: a value, its items or members one after another, and blanks between all of
them. The reader counts steps, of which two for each byte are enough, and levels of nesting, of
which it allows one less than its limit.
-/
import SecretRenewal.Proofs.Json.Numerals
import SecretRenewal.Proofs.Json.Texts

namespace SecretRenewal.Json

/-! ### How a document begins -/

/-- The byte that a document begins with. -/
def Leads : Document → UInt8 → Prop
  | .null, first => first = byteOf 'n'
  | .boolean value, first => first = byteOf (if value then 't' else 'f')
  | .number _, first => (decide (first = byteOf '-') || isDigit first) = true
  | .text _, first => first = byteOf '"'
  | .list _, first => first = byteOf '['
  | .object _, first => first = byteOf '\x7b'

/-- A written document begins with the byte that shows its kind. -/
theorem Writes.leads {document : Document} {bytes : List UInt8} (written : Writes document bytes) :
    ∃ first inside, bytes = first :: inside ∧ Leads document first := by
  cases written with
  | null => exact ⟨_, _, rfl, rfl⟩
  | boolean value => cases value <;> exact ⟨_, _, rfl, rfl⟩
  | number written =>
    have ends : Ends [] := nofun
    obtain ⟨first, inside, cons, starts, -⟩ := Reader.signedNumber_of_writes written ends
    exact ⟨first, inside, cons, starts⟩
  | text written =>
    obtain ⟨_⟩ := written
    exact ⟨_, _, rfl, rfl⟩
  | noItems => exact ⟨_, _, rfl, rfl⟩
  | list => exact ⟨_, _, rfl, rfl⟩
  | noMembers => exact ⟨_, _, rfl, rfl⟩
  | object => exact ⟨_, _, rfl, rfl⟩

/-- The first byte of a number is none of the other marks. -/
theorem ne_of_startsNumber {first byte : UInt8}
    (starts : (decide (first = byteOf '-') || isDigit first) = true)
    (other : (decide (byte = byteOf '-') || isDigit byte) = false) : first ≠ byte := by
  rintro rfl
  rw [starts] at other
  cases other

/-- A mark that no document begins with. -/
theorem Leads.ne {document : Document} {first byte : UInt8} (leads : Leads document first)
    (notNumber : (decide (byte = byteOf '-') || isDigit byte) = false)
    (notWord : byte ∉ ['n', 't', 'f', '"', '[', '\x7b'].map byteOf) : first ≠ byte := by
  rintro rfl
  cases document with
  | number => exact ne_of_startsNumber leads notNumber rfl
  | boolean value => cases value <;> exact notWord (by rw [show first = _ from leads]; decide)
  | _ => exact notWord (by rw [show first = _ from leads]; decide)

/-- No document begins with a blank. -/
theorem Leads.solid {document : Document} {first : UInt8} (leads : Leads document first) :
    isBlank first = false := by
  rw [← Bool.not_eq_true, isBlank_iff]
  rintro (same | same | same | same)
  all_goals exact leads.ne rfl (by decide) same

/-! ### What follows a document -/

theorem ends_cons {byte : UInt8} (mark : byte ∈ [',', ']', '\x7d'].map byteOf) (rest : List UInt8) :
    Ends (byte :: rest) := by
  rintro _ ⟨⟩
  simp only [List.map_cons, List.map_nil, List.mem_cons, List.not_mem_nil, or_false] at mark
  rcases mark with rfl | rfl | rfl <;> exact ⟨rfl, by decide, by decide, by decide⟩

/-- Blanks before something that ends a number end it as well. -/
theorem Blanks.ends {blanks rest : List UInt8} (blank : Blanks blanks) (ends : Ends rest) :
    Ends (blanks ++ rest) := by
  cases blanks with
  | nil => exact ends
  | cons byte blanks =>
    rintro _ ⟨⟩
    rcases isBlank_iff.mp (blank byte List.mem_cons_self) with rfl | rfl | rfl | rfl
    all_goals exact ⟨rfl, by decide, by decide, by decide⟩

theorem WritesItems.ends {items : List Document} {bytes : List UInt8}
    (written : WritesItems items bytes) (rest : List UInt8) :
    Ends (bytes ++ byteOf ']' :: rest) := by
  cases written with
  | nil => exact ends_cons (by decide) rest
  | cons => exact ends_cons (by decide) _

theorem WritesMembers.ends {members : List (String × Document)} {bytes : List UInt8}
    (written : WritesMembers members bytes) (rest : List UInt8) :
    Ends (bytes ++ byteOf '\x7d' :: rest) := by
  cases written with
  | nil => exact ends_cons (by decide) rest
  | cons => exact ends_cons (by decide) _

namespace Reader

/-! ### Between items and members -/

section

variable {document : Document} {blanks bytes rest : List UInt8}

/-- Blanks in front of a value are taken off to look at it. -/
theorem peekValue_of_writes (blank : Blanks blanks) (written : Writes document bytes) :
    ∃ first inside, bytes = first :: inside ∧ Leads document first ∧
      ∀ rest, peekValue (blanks ++ (bytes ++ rest)) = .ok (first, bytes ++ rest) := by
  obtain ⟨first, inside, rfl, leads⟩ := written.leads
  exact ⟨first, inside, rfl, leads, fun rest => peekValue_of_blanks blank leads.solid⟩

theorem anotherItem_of_first (blank : Blanks blanks) (written : Writes document bytes) :
    anotherItem true (blanks ++ (bytes ++ rest)) = .ok (true, bytes ++ rest) := by
  obtain ⟨first, inside, rfl, leads⟩ := written.leads
  refine (bind_of_ok (peekAfterBlanks?_of_blanks blank leads.solid) _).trans ?_
  show (if first = byteOf ']' then _ else _ : Reader Bool) _ = _
  rw [if_neg (leads.ne rfl (by decide))]
  rfl

/-- Behind an item and a comma there is another one. -/
theorem anotherItem_of_next {before : List UInt8} (blank : Blanks blanks)
    (blankBefore : Blanks before) (written : Writes document bytes) :
    anotherItem false (blanks ++ byteOf ',' :: (before ++ (bytes ++ rest))) =
      .ok (true, bytes ++ rest) := by
  obtain ⟨first, -, -, leads, seen⟩ := peekValue_of_writes blankBefore written
  refine (bind_of_ok (peekAfterBlanks?_of_blanks blank rfl) _).trans ?_
  refine (bind_of_ok (drop_eq _) _).trans ?_
  refine (bind_of_ok (seen rest) _).trans ?_
  rw [if_neg (leads.ne rfl (by decide))]
  rfl

theorem anotherItem_of_end (first : Bool) (blank : Blanks blanks) :
    anotherItem first (blanks ++ byteOf ']' :: rest) = .ok (false, byteOf ']' :: rest) :=
  (bind_of_ok (peekAfterBlanks?_of_blanks blank rfl) _).trans rfl

variable {key : String}

/-- A written text is its characters between two quotes. -/
theorem WritesText.inside (written : WritesText key bytes) (rest : List UInt8) :
    ∃ inside, WritesChars key.toList inside ∧
      bytes ++ rest = byteOf '"' :: (inside ++ byteOf '"' :: rest) := by
  obtain ⟨chars⟩ := written
  exact ⟨_, chars, by rw [List.cons_append, List.append_assoc, List.singleton_append]⟩

theorem anotherKey?_of_first (blank : Blanks blanks) (written : WritesText key bytes) :
    anotherKey? true (blanks ++ (bytes ++ rest)) = .ok (some key, rest) := by
  obtain ⟨inside, chars, split⟩ := WritesText.inside written rest
  rw [split]
  refine (bind_of_ok (peekAfterBlanks?_of_blanks blank rfl) _).trans ?_
  show (drop >>= fun _ => text >>= fun key => pure (some key)) _ = _
  refine (bind_of_ok (drop_eq _) _).trans ?_
  exact bind_of_ok (text_of_chars chars rest) _

/-- Behind a member and a comma there is the key of another one. -/
theorem anotherKey?_of_next {before : List UInt8} (blank : Blanks blanks)
    (blankBefore : Blanks before) (written : WritesText key bytes) :
    anotherKey? false (blanks ++ byteOf ',' :: (before ++ (bytes ++ rest))) =
      .ok (some key, rest) := by
  obtain ⟨inside, chars, split⟩ := WritesText.inside written rest
  rw [split]
  refine (bind_of_ok (peekAfterBlanks?_of_blanks blank rfl) _).trans ?_
  refine (bind_of_ok (drop_eq _) _).trans ?_
  refine (bind_of_ok (peekValue_of_blanks blankBefore rfl) _).trans ?_
  refine (bind_of_ok (drop_eq _) _).trans ?_
  exact bind_of_ok (text_of_chars chars rest) _

theorem anotherKey?_of_end (first : Bool) (blank : Blanks blanks) :
    anotherKey? first (blanks ++ byteOf '\x7d' :: rest) = .ok (none, byteOf '\x7d' :: rest) :=
  (bind_of_ok (peekAfterBlanks?_of_blanks blank rfl) _).trans rfl

end

/-! ### Values -/

section

variable {steps depth : Nat} {first : Bool} {bytes middle after rest : List UInt8}

theorem anyItems_cons {item : Json} {items : List Json}
    (another : anotherItem first bytes = .ok (true, middle))
    (read : anyValue steps depth middle = .ok (item, after))
    (others : anyItems steps depth false after = .ok (items, rest)) :
    anyItems (steps + 1) depth first bytes = .ok (item :: items, rest) := by
  refine (bind_of_ok another _).trans ?_
  refine (bind_of_ok read _).trans ?_
  exact bind_of_ok others _

/-- A member is put in before the others are read, so that a later one of its key replaces it. -/
theorem anyMembers_cons {members all : Entries Json} {key : String} {value : Json}
    {afterKey : List UInt8} (another : anotherKey? first bytes = .ok (some key, afterKey))
    (separated : colon afterKey = .ok ((), middle))
    (read : anyValue steps depth middle = .ok (value, after))
    (others : anyMembers steps depth false (members.set key value) after = .ok (all, rest)) :
    anyMembers (steps + 1) depth first members bytes = .ok (all, rest) := by
  refine (bind_of_ok another _).trans ?_
  refine (bind_of_ok separated _).trans ?_
  refine (bind_of_ok read _).trans ?_
  exact others

end

theorem anyValue_list {levels : Nat} {items : List Json} {blanks inside : List UInt8}
    (blank : Blanks blanks)
    (read : anyItems steps (levels + 1) true inside = .ok (items, byteOf ']' :: rest)) :
    anyValue (steps + 1) (levels + 2) (blanks ++ byteOf '[' :: inside) =
      .ok (.list items, rest) := by
  refine (bind_of_ok (peekValue_of_blanks blank rfl) _).trans ?_
  show (drop >>= fun _ => anyItems steps (levels + 1) true >>= fun items =>
    endOfList >>= fun _ => pure (Json.list items)) _ = _
  refine (bind_of_ok (drop_eq _) _).trans ?_
  refine (bind_of_ok read _).trans ?_
  exact bind_of_ok endOfList_cons _

theorem anyValue_object {levels : Nat} {members : Entries Json} {blanks inside : List UInt8}
    (blank : Blanks blanks)
    (read : anyMembers steps (levels + 1) true [] inside = .ok (members, byteOf '\x7d' :: rest)) :
    anyValue (steps + 1) (levels + 2) (blanks ++ byteOf '\x7b' :: inside) =
      .ok (.object members, rest) := by
  refine (bind_of_ok (peekValue_of_blanks blank rfl) _).trans ?_
  show (drop >>= fun _ => anyMembers steps (levels + 1) true [] >>= fun members =>
    endOfObject >>= fun _ => pure (Json.object members)) _ = _
  refine (bind_of_ok (drop_eq _) _).trans ?_
  refine (bind_of_ok read _).trans ?_
  exact bind_of_ok endOfObject_cons _

theorem anyValue_number {numeral : Numeral} {blanks : List UInt8} (blank : Blanks blanks)
    (written : numeral.Writes bytes) (finite : numeral.Finite) (ends : Ends rest) :
    anyValue (steps + 1) depth (blanks ++ (bytes ++ rest)) =
      .ok ((Document.number numeral).json, rest) := by
  obtain ⟨number, isNumber⟩ := Option.isSome_iff_exists.mp finite
  obtain ⟨first, inside, rfl, starts, read⟩ := signedNumber_of_writes written ends
  have leads : Leads (.number numeral) first := starts
  rw [isNumber] at read
  refine (bind_of_ok (peekValue_of_blanks blank leads.solid) _).trans ?_
  rw [if_neg (ne_of_startsNumber leads rfl), if_neg (ne_of_startsNumber leads rfl),
    if_neg (ne_of_startsNumber leads rfl),
    if_pos starts]
  refine (bind_of_ok read _).trans ?_
  rw [Document.json, isNumber]
  cases number <;> rfl

theorem exists_fewer {steps count : Nat} (enough : count < steps) : ∃ fewer, steps = fewer + 1 :=
  ⟨steps - 1, by omega⟩

mutual

/-- A written document is read as the data it stands for, in two steps for each byte at most, where
its brackets are not too deep and its numbers are finite. -/
theorem anyValue_of_writes {document : Document} {bytes : List UInt8}
    (written : Writes document bytes) {steps levels : Nat} {blanks rest : List UInt8}
    (blank : Blanks blanks) (enough : 2 * bytes.length ≤ steps)
    (fits : document.Fits Numeral.Finite levels) (ends : Ends rest) :
    anyValue steps (levels + 1) (blanks ++ (bytes ++ rest)) = .ok (document.json, rest) := by
  obtain ⟨steps, rfl⟩ : ∃ fewer, steps = fewer + 1 := by
    obtain ⟨first, inside, rfl, -⟩ := written.leads
    rw [List.length_cons] at enough
    exact exists_fewer (Nat.lt_of_lt_of_le (Nat.zero_lt_succ _) enough)
  match written with
  | .null =>
    refine (bind_of_ok (peekValue_of_blanks blank rfl) _).trans ?_
    exact bind_of_ok (word_map ['n', 'u', 'l', 'l'] rest) _
  | .boolean true =>
    refine (bind_of_ok (peekValue_of_blanks blank rfl) _).trans ?_
    exact bind_of_ok (word_map ['t', 'r', 'u', 'e'] rest) _
  | .boolean false =>
    refine (bind_of_ok (peekValue_of_blanks blank rfl) _).trans ?_
    exact bind_of_ok (word_map ['f', 'a', 'l', 's', 'e'] rest) _
  | .number written =>
    cases fits with
    | number finite => exact anyValue_number blank written finite ends
  | .text written =>
    obtain ⟨inside, chars, split⟩ := WritesText.inside written rest
    rw [split]
    refine (bind_of_ok (peekValue_of_blanks blank rfl) _).trans ?_
    refine (bind_of_ok (drop_eq _) _).trans ?_
    exact bind_of_ok (text_of_chars chars rest) _
  | .noItems blankInside =>
    cases fits with
    | list fit =>
      obtain ⟨steps, rfl⟩ : ∃ fewer, steps = fewer + 1 := by
        simp only [List.length_cons, List.length_append] at enough
        exact exists_fewer (show 0 < steps by omega)
      rw [List.cons_append, List.append_assoc]
      exact anyValue_list blank (bind_of_ok (anotherItem_of_end true blankInside) _)
  | .list (.item blankBefore written blankAfter) others =>
    cases fits with
    | list fit =>
      simp only [List.length_cons, List.length_append] at enough
      obtain ⟨steps, rfl⟩ : ∃ fewer, steps = fewer + 1 := exists_fewer (show 0 < steps by omega)
      obtain ⟨fitItem, fitOthers⟩ := List.forall_mem_cons.mp fit
      simp only [List.cons_append, List.append_assoc]
      refine anyValue_list blank (anyItems_cons (anotherItem_of_first blankBefore written)
        (anyValue_of_writes written Blanks.nil (by omega) fitItem (blankAfter.ends (others.ends _)))
        (anyItems_of_writes others blankAfter (by omega) fitOthers))
  | .noMembers blankInside =>
    cases fits with
    | object fit =>
      obtain ⟨steps, rfl⟩ : ∃ fewer, steps = fewer + 1 := by
        simp only [List.length_cons, List.length_append] at enough
        exact exists_fewer (show 0 < steps by omega)
      rw [List.cons_append, List.append_assoc]
      exact anyValue_object blank (bind_of_ok (anotherKey?_of_end true blankInside) _)
  | .object (.member blankBefore writtenKey blankKey (.item blankValue written blankAfter))
      others =>
    cases fits with
    | object fit =>
      simp only [List.length_cons, List.length_append] at enough
      obtain ⟨steps, rfl⟩ : ∃ fewer, steps = fewer + 1 := exists_fewer (show 0 < steps by omega)
      obtain ⟨fitMember, fitOthers⟩ := List.forall_mem_cons.mp fit
      simp only [List.cons_append, List.append_assoc]
      refine anyValue_object blank (anyMembers_cons (anotherKey?_of_first blankBefore writtenKey)
        (colon_of_blanks blankKey)
        (anyValue_of_writes written blankValue (by omega) fitMember
          (blankAfter.ends (others.ends _)))
        (anyMembers_of_writes others blankAfter (by omega) fitOthers _))

/-- Further items of a list are read up to the bracket that closes it. -/
theorem anyItems_of_writes {items : List Document} {bytes : List UInt8}
    (written : WritesItems items bytes) {steps levels : Nat} {blanks rest : List UInt8}
    (blank : Blanks blanks) (enough : 2 * bytes.length < steps)
    (fit : ∀ item ∈ items, item.Fits Numeral.Finite levels) :
    anyItems steps (levels + 1) false (blanks ++ (bytes ++ byteOf ']' :: rest)) =
      .ok (Document.itemsJson items, byteOf ']' :: rest) := by
  obtain ⟨steps, rfl⟩ := exists_fewer enough
  match written with
  | .nil => exact bind_of_ok (anotherItem_of_end false blank) _
  | .cons (.item blankBefore written blankAfter) others =>
    simp only [List.length_cons, List.length_append] at enough
    obtain ⟨fitItem, fitOthers⟩ := List.forall_mem_cons.mp fit
    simp only [List.cons_append, List.append_assoc]
    exact anyItems_cons (anotherItem_of_next blank blankBefore written)
      (anyValue_of_writes written Blanks.nil (by omega) fitItem (blankAfter.ends (others.ends _)))
      (anyItems_of_writes others blankAfter (by omega) fitOthers)

/-- Further members of an object are set one after another, up to the bracket that closes it. -/
theorem anyMembers_of_writes {members : List (String × Document)} {bytes : List UInt8}
    (written : WritesMembers members bytes) {steps levels : Nat} {blanks rest : List UInt8}
    (blank : Blanks blanks) (enough : 2 * bytes.length < steps)
    (fit : ∀ member ∈ members, member.2.Fits Numeral.Finite levels) (earlier : Entries Json) :
    anyMembers steps (levels + 1) false earlier (blanks ++ (bytes ++ byteOf '\x7d' :: rest)) =
      .ok (earlier.setAll (Document.membersJson members), byteOf '\x7d' :: rest) := by
  obtain ⟨steps, rfl⟩ := exists_fewer enough
  match written with
  | .nil => exact bind_of_ok (anotherKey?_of_end false blank) _
  | .cons (.member blankBefore writtenKey blankKey (.item blankValue written blankAfter)) others =>
    simp only [List.length_cons, List.length_append] at enough
    obtain ⟨fitMember, fitOthers⟩ := List.forall_mem_cons.mp fit
    simp only [List.cons_append, List.append_assoc]
    exact anyMembers_cons (anotherKey?_of_next blank blankBefore writtenKey)
      (colon_of_blanks blankKey)
      (anyValue_of_writes written blankValue (by omega) fitMember
        (blankAfter.ends (others.ends _)))
      (anyMembers_of_writes others blankAfter (by omega) fitOthers _)

end

end Reader

end SecretRenewal.Json
