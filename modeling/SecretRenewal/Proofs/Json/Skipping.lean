/-
This file proves that a written document is passed over as a whole, however deep its lists and
objects are nested. Skipping is a walk with a stack of open brackets, so what is shown of a document
is that the walk comes from its front to its end with the stack it had, and that it takes no more
than three steps for each byte on the way.
-/
import SecretRenewal.Proofs.Json.Values

namespace SecretRenewal.Json.Reader

/-! ### One step -/

section

variable {steps : Nat} {brackets : List Bracket} {blanks bytes rest : List UInt8}

theorem skipFrom_number {numeral : Numeral} (blank : Blanks blanks) (written : numeral.Writes bytes)
    (ends : Ends rest) : skipFrom (steps + 1) .value brackets (blanks ++ (bytes ++ rest)) =
      skipFrom steps .ended brackets rest := by
  obtain ⟨writtenExponent⟩ := written
  have skipped := skipNumber_of_digits writtenExponent ends
  cases isNegative : numeral.negative with
  | true =>
    simp only [if_true, List.append_assoc, List.cons_append, List.nil_append]
    refine (bind_of_ok (peekValue_of_blanks blank rfl) _).trans ?_
    refine (bind_of_ok (drop_eq _) _).trans ?_
    exact bind_of_ok skipped _
  | false =>
    simp only [Bool.false_eq_true, if_false, List.append_assoc, List.nil_append]
    obtain ⟨first, inside, cons, digit⟩ := body_cons numeral (numeral.fractionBytes ++ (_ ++ rest))
    have leads : Leads (.number numeral) first := by
      show (decide (first = byteOf '-') || isDigit first) = true
      rw [digit, Bool.or_true]
    have noSign : first ≠ byteOf '-' := by
      rintro rfl
      cases digit
    rw [cons] at skipped ⊢
    refine (bind_of_ok (peekValue_of_blanks blank leads.solid) _).trans ?_
    rw [if_neg (ne_of_startsNumber leads rfl), if_neg (ne_of_startsNumber leads rfl),
      if_neg (ne_of_startsNumber leads rfl), if_neg noSign, if_pos digit]
    exact bind_of_ok skipped _

theorem skipFrom_text {value : String} (blank : Blanks blanks) (written : WritesText value bytes) :
    skipFrom (steps + 1) .value brackets (blanks ++ (bytes ++ rest)) =
      skipFrom steps .ended brackets rest := by
  obtain ⟨inside, chars, split⟩ := WritesText.inside written rest
  rw [split]
  refine (bind_of_ok (peekValue_of_blanks blank rfl) _).trans ?_
  refine (bind_of_ok (drop_eq _) _).trans ?_
  exact bind_of_ok (skipText_of_chars chars rest) _

theorem skipFrom_key {key : String} {after : List UInt8} (blank : Blanks blanks)
    (written : WritesText key bytes) (blankAfter : Blanks after) :
    skipFrom (steps + 1) .key brackets (blanks ++ (bytes ++ (after ++ byteOf ':' :: rest))) =
      skipFrom steps .value brackets rest := by
  obtain ⟨inside, chars, split⟩ := WritesText.inside written (after ++ byteOf ':' :: rest)
  rw [split]
  refine (bind_of_ok (peekValue_of_blanks blank rfl) _).trans ?_
  refine (bind_of_ok (drop_eq _) _).trans ?_
  refine (bind_of_ok (skipText_of_chars chars _) _).trans ?_
  exact bind_of_ok (colon_of_blanks blankAfter) _

/-- What begins an item of a list is left to be skipped as a value. -/
theorem skipFrom_item {document : Document} (blank : Blanks blanks)
    (written : Writes document bytes) :
    skipFrom (steps + 1) .opened (.list :: brackets) (blanks ++ (bytes ++ rest)) =
      skipFrom steps .value (.list :: brackets) (bytes ++ rest) := by
  obtain ⟨first, -, -, leads, seen⟩ := peekValue_of_writes blank written
  refine (bind_of_ok (seen rest) _).trans ?_
  exact congrFun (if_neg (leads.ne rfl (by decide))) _

theorem skipFrom_member {key : String} (blank : Blanks blanks) (written : WritesText key bytes) :
    skipFrom (steps + 1) .opened (.object :: brackets) (blanks ++ (bytes ++ rest)) =
      skipFrom steps .key (.object :: brackets) (bytes ++ rest) := by
  obtain ⟨inside, -, split⟩ := WritesText.inside written rest
  rw [split]
  exact bind_of_ok (peekValue_of_blanks blank rfl) _

end

/-! ### A whole document -/

mutual

/-- A written document takes three steps for each byte at most, whatever brackets are open around
it. -/
theorem skipFrom_of_writes {document : Document} {bytes : List UInt8}
    (written : Writes document bytes) {blanks rest : List UInt8} (blank : Blanks blanks)
    (ends : Ends rest) : ∃ taken, taken ≤ 3 * bytes.length ∧ ∀ steps brackets,
      skipFrom (steps + taken) .value brackets (blanks ++ (bytes ++ rest)) =
        skipFrom steps .ended brackets rest := by
  have nonempty : 0 < bytes.length := by
    obtain ⟨_, _, rfl, -⟩ := written.leads
    exact Nat.zero_lt_succ _
  match written with
  | .null =>
    refine ⟨1, by decide, fun steps brackets => ?_⟩
    refine (bind_of_ok (peekValue_of_blanks blank rfl) _).trans ?_
    exact bind_of_ok (word_map ['n', 'u', 'l', 'l'] rest) _
  | .boolean true =>
    refine ⟨1, by decide, fun steps brackets => ?_⟩
    refine (bind_of_ok (peekValue_of_blanks blank rfl) _).trans ?_
    exact bind_of_ok (word_map ['t', 'r', 'u', 'e'] rest) _
  | .boolean false =>
    refine ⟨1, by decide, fun steps brackets => ?_⟩
    refine (bind_of_ok (peekValue_of_blanks blank rfl) _).trans ?_
    exact bind_of_ok (word_map ['f', 'a', 'l', 's', 'e'] rest) _
  | .number numeralWritten =>
    exact ⟨1, by omega, fun _ _ => skipFrom_number blank numeralWritten ends⟩
  | .text textWritten =>
    exact ⟨1, by omega, fun _ _ => skipFrom_text blank textWritten⟩
  | .noItems blankInside =>
    refine ⟨2, by simp only [List.length_cons, List.length_append]; omega, fun steps brackets => ?_⟩
    rw [List.cons_append, List.append_assoc]
    refine (bind_of_ok (peekValue_of_blanks blank rfl) _).trans ?_
    refine (bind_of_ok (drop_eq _) _).trans ?_
    exact bind_of_ok (peekValue_of_blanks blankInside rfl) _
  | .list (.item blankBefore itemWritten blankAfter) others =>
    obtain ⟨takenOthers, fewOthers, passOthers⟩ :=
      skipFrom_items_of_writes others blankAfter rest
    obtain ⟨takenItem, fewItem, passItem⟩ := skipFrom_of_writes itemWritten Blanks.nil
      (blankAfter.ends (others.ends rest))
    refine ⟨takenOthers + takenItem + 1 + 1, ?_, fun steps brackets => ?_⟩
    · simp only [List.length_cons, List.length_append]
      omega
    · simp only [← Nat.add_assoc, List.cons_append, List.append_assoc, List.nil_append]
      refine (bind_of_ok (peekValue_of_blanks blank rfl) _).trans ?_
      refine (bind_of_ok (drop_eq _) _).trans ?_
      refine (skipFrom_item blankBefore itemWritten).trans ?_
      exact (passItem _ _).trans (passOthers _ _)
  | .noMembers blankInside =>
    refine ⟨2, by simp only [List.length_cons, List.length_append]; omega, fun steps brackets => ?_⟩
    rw [List.cons_append, List.append_assoc]
    refine (bind_of_ok (peekValue_of_blanks blank rfl) _).trans ?_
    refine (bind_of_ok (drop_eq _) _).trans ?_
    exact bind_of_ok (peekValue_of_blanks blankInside rfl) _
  | .object (.member blankBefore writtenKey blankKey (.item blankValue valueWritten blankAfter))
      others =>
    obtain ⟨takenOthers, fewOthers, passOthers⟩ :=
      skipFrom_members_of_writes others blankAfter rest
    obtain ⟨takenValue, fewValue, passValue⟩ := skipFrom_of_writes valueWritten blankValue
      (blankAfter.ends (others.ends rest))
    refine ⟨takenOthers + takenValue + 1 + 1 + 1, ?_, fun steps brackets => ?_⟩
    · simp only [List.length_cons, List.length_append]
      omega
    · simp only [← Nat.add_assoc, List.cons_append, List.append_assoc, List.nil_append]
      refine (bind_of_ok (peekValue_of_blanks blank rfl) _).trans ?_
      refine (bind_of_ok (drop_eq _) _).trans ?_
      refine (skipFrom_member blankBefore writtenKey).trans ?_
      refine (skipFrom_key Blanks.nil writtenKey blankKey).trans ?_
      exact (passValue _ _).trans (passOthers _ _)

/-- Further items of a list are skipped with the bracket that closes it. -/
theorem skipFrom_items_of_writes {items : List Document} {bytes : List UInt8}
    (written : WritesItems items bytes) {blanks : List UInt8} (blank : Blanks blanks)
    (rest : List UInt8) :
    ∃ taken, taken ≤ 3 * bytes.length + 1 ∧ ∀ steps brackets,
      skipFrom (steps + taken) .ended (.list :: brackets)
        (blanks ++ (bytes ++ byteOf ']' :: rest)) = skipFrom steps .ended brackets rest := by
  match written with
  | .nil =>
    refine ⟨1, by decide, fun steps brackets => ?_⟩
    exact bind_of_ok (peekValue_of_blanks blank rfl) _
  | .cons (.item blankBefore itemWritten blankAfter) others =>
    obtain ⟨takenOthers, fewOthers, passOthers⟩ :=
      skipFrom_items_of_writes others blankAfter rest
    obtain ⟨takenItem, fewItem, passItem⟩ := skipFrom_of_writes itemWritten blankBefore
      (blankAfter.ends (others.ends rest))
    refine ⟨takenOthers + takenItem + 1, ?_, fun steps brackets => ?_⟩
    · simp only [List.length_cons, List.length_append]
      omega
    · simp only [← Nat.add_assoc, List.cons_append, List.append_assoc]
      refine (bind_of_ok (peekValue_of_blanks blank rfl) _).trans ?_
      refine (bind_of_ok (drop_eq _) _).trans ?_
      exact (passItem _ _).trans (passOthers _ _)

/-- Further members of an object are skipped with the bracket that closes it. -/
theorem skipFrom_members_of_writes {members : List (String × Document)} {bytes : List UInt8}
    (written : WritesMembers members bytes) {blanks : List UInt8} (blank : Blanks blanks)
    (rest : List UInt8) :
    ∃ taken, taken ≤ 3 * bytes.length + 1 ∧ ∀ steps brackets,
      skipFrom (steps + taken) .ended (.object :: brackets)
        (blanks ++ (bytes ++ byteOf '\x7d' :: rest)) = skipFrom steps .ended brackets rest := by
  match written with
  | .nil =>
    refine ⟨1, by decide, fun steps brackets => ?_⟩
    exact bind_of_ok (peekValue_of_blanks blank rfl) _
  | .cons (.member blankBefore writtenKey blankKey (.item blankValue valueWritten blankAfter))
      others =>
    obtain ⟨takenOthers, fewOthers, passOthers⟩ :=
      skipFrom_members_of_writes others blankAfter rest
    obtain ⟨takenValue, fewValue, passValue⟩ := skipFrom_of_writes valueWritten blankValue
      (blankAfter.ends (others.ends rest))
    refine ⟨takenOthers + takenValue + 1 + 1, ?_, fun steps brackets => ?_⟩
    · simp only [List.length_cons, List.length_append]
      omega
    · simp only [← Nat.add_assoc, List.cons_append, List.append_assoc]
      refine (bind_of_ok (peekValue_of_blanks blank rfl) _).trans ?_
      refine (bind_of_ok (drop_eq _) _).trans ?_
      refine (skipFrom_key blankBefore writtenKey blankKey).trans ?_
      exact (passValue _ _).trans (passOthers _ _)

end

/-- A written document is passed over. -/
theorem skip_of_writes {document : Document} {blanks bytes rest : List UInt8}
    (blank : Blanks blanks) (written : Writes document bytes) (ends : Ends rest) :
    skip (blanks ++ (bytes ++ rest)) = .ok ((), rest) := by
  obtain ⟨taken, few, pass⟩ := skipFrom_of_writes written blank ends
  show skipFrom (3 * (blanks ++ (bytes ++ rest)).length + 3) .value []
    (blanks ++ (bytes ++ rest)) = _
  obtain ⟨left, enough⟩ : ∃ left,
      3 * (blanks ++ (bytes ++ rest)).length + 3 = left + 1 + taken := by
    refine ⟨3 * (blanks ++ (bytes ++ rest)).length + 2 - taken, ?_⟩
    simp only [List.length_append]
    omega
  rw [enough]
  exact pass _ _

end SecretRenewal.Json.Reader
