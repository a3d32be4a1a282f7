/-
This file cuts texts into the pieces between separators. All that is in a piece comes from the text,
and none of it is a separator.
-/

namespace SecretRenewal.Text

/-- Cuts characters at every separator. There is always a piece, and one more than separators. -/
def pieces (isSeparator : Char → Bool) : List Char → List (List Char)
  | [] => [[]]
  | char :: rest =>
    if isSeparator char then [] :: pieces isSeparator rest
    else match pieces isSeparator rest with
      | piece :: more => (char :: piece) :: more
      | [] => [[char]]

/-- There is always a piece. -/
theorem pieces_ne_nil (isSeparator : Char → Bool) (chars : List Char) :
    pieces isSeparator chars ≠ [] := by
  cases chars with
  | nil => simp [pieces]
  | cons char rest =>
    unfold pieces
    split
    · simp
    · split <;> simp

/-- No piece has a separator in it. -/
theorem isSeparator_of_mem_pieces {isSeparator : Char → Bool} {chars piece : List Char}
    (member : piece ∈ pieces isSeparator chars) {char : Char} (inside : char ∈ piece) :
    isSeparator char = false := by
  induction chars generalizing piece with
  | nil =>
    rw [pieces, List.mem_singleton] at member
    subst member
    cases inside
  | cons first rest inductionHypothesis =>
    unfold pieces at member
    split at member
    · rcases List.mem_cons.mp member with rfl | member
      · cases inside
      · exact inductionHypothesis member inside
    · rename_i notSeparator
      split at member
      · rename_i head more cut
        rcases List.mem_cons.mp member with rfl | member
        · rcases List.mem_cons.mp inside with rfl | inside
          · simpa using notSeparator
          · exact inductionHypothesis (cut ▸ List.mem_cons_self) inside
        · exact inductionHypothesis (cut ▸ List.mem_cons_of_mem _ member) inside
      · rw [List.mem_singleton] at member
        subst member
        rw [List.mem_singleton] at inside
        subst inside
        simpa using notSeparator

/-- What is in a piece is in the text. -/
theorem mem_of_mem_pieces {isSeparator : Char → Bool} {chars piece : List Char}
    (member : piece ∈ pieces isSeparator chars) {char : Char} (inside : char ∈ piece) :
    char ∈ chars := by
  induction chars generalizing piece with
  | nil =>
    rw [pieces, List.mem_singleton] at member
    subst member
    cases inside
  | cons first rest inductionHypothesis =>
    unfold pieces at member
    split at member
    · rcases List.mem_cons.mp member with rfl | member
      · cases inside
      · exact List.mem_cons_of_mem _ (inductionHypothesis member inside)
    · split at member
      · rename_i head more cut
        rcases List.mem_cons.mp member with rfl | member
        · rcases List.mem_cons.mp inside with rfl | inside
          · exact List.mem_cons_self
          · exact List.mem_cons_of_mem _
              (inductionHypothesis (cut ▸ List.mem_cons_self) inside)
        · exact List.mem_cons_of_mem _
            (inductionHypothesis (cut ▸ List.mem_cons_of_mem _ member) inside)
      · rename_i none
        exact absurd none (pieces_ne_nil isSeparator rest)

end SecretRenewal.Text
