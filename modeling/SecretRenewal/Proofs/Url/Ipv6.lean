/-
This file proves that an address of eight words is written as a text that is read as this address.
Its longest run of zeros is left out, which is just what two colons in a row stand for, and nowhere
else in the text are there two of them.
-/
import SecretRenewal.Proofs.Text.Numbers
import Mathlib.Data.List.TakeWhile

namespace SecretRenewal.Url

open Text

/-! ### Addresses of eight words -/

theorem ipv6Word?_toDigits {word : Nat} (small : word < 65536) :
    ipv6Word? (Nat.toDigits 16 word) = some word := by
  unfold ipv6Word?
  rw [if_neg, numberIn?_toDigits (by decide) (by decide)]
  rintro (none | long)
  · exact Nat.toDigits_ne_nil none
  · have short : (Nat.toDigits 16 word).length ≤ 4 :=
      (Nat.length_toDigits_le_iff (by decide) (by decide)).mpr small
    omega

/-- The digits of a word have no colon and no dot. -/
theorem mem_word {word : Nat} {char : Char} (member : char ∈ Nat.toDigits 16 word) :
    char ≠ ':' ∧ char ≠ '.' ∧ char ≠ '[' ∧ char ≠ ']' ∧ char ≠ '@' ∧ isControl char = false ∧
      endsAuthority true char = false := by
  obtain ⟨digit, small, rfl⟩ := exists_digit_of_mem (by decide) member
  have all : ∀ digit < 16, Nat.digitChar digit ≠ ':' ∧ Nat.digitChar digit ≠ '.' ∧
      Nat.digitChar digit ≠ '[' ∧ Nat.digitChar digit ≠ ']' ∧ Nat.digitChar digit ≠ '@' ∧
      isControl (Nat.digitChar digit) = false ∧
      endsAuthority true (Nat.digitChar digit) = false := by decide
  exact all digit small

theorem wordsText_toList (first : Nat) (rest : List Nat) : (wordsText (first :: rest)).toList =
    Nat.toDigits 16 first ++ marked ':' (rest.map (Nat.toDigits 16)) := by
  unfold wordsText
  rw [String.toList_intercalate, List.map_map, List.map_cons, ← intercalate_eq_marked]
  refine congrArg (List.intercalate [':']) ?_
  rw [Function.comp_apply, String.toList_ofList]
  exact congrArg _ (List.map_congr_left fun word _ => String.toList_ofList)

/-- Words with colons between them are read as these words. -/
theorem ipv6Words?_wordsText (withTail : Bool) {words : List Nat}
    (small : ∀ word ∈ words, word < 65536) :
    ipv6Words? withTail (wordsText words).toList = some words := by
  cases words with
  | nil => rfl
  | cons first rest =>
    have cut : pieces (· == ':') (wordsText (first :: rest)).toList =
        (first :: rest).map (Nat.toDigits 16) := by
      rw [wordsText_toList]
      refine pieces_marked rfl fun piece member char inside => ?_
      have isWord : piece ∈ (first :: rest).map (Nat.toDigits 16) := member
      obtain ⟨word, -, rfl⟩ := List.mem_map.mp isWord
      exact beq_eq_false_iff_ne.mpr (mem_word inside).1
    have words := mapM_map_eq_some fun word (member : word ∈ first :: rest) =>
      ipv6Word?_toDigits (small word member)
    unfold ipv6Words?
    rw [if_neg, cut]
    · dsimp only
      rw [if_neg]
      · exact words
      · rw [Bool.and_eq_true, not_and]
        intro _ dotted
        obtain ⟨digits, isLast⟩ : ∃ word, ((first :: rest).map (Nat.toDigits 16)).getLastD [] =
            Nat.toDigits 16 word := by
          rw [List.getLastD_eq_getLast?, List.getLast?_map]
          cases isLast : (first :: rest).getLast? with
          | none => exact absurd (List.getLast?_eq_none_iff.mp isLast) (List.cons_ne_nil _ _)
          | some word => exact ⟨word, rfl⟩
        rw [isLast] at dotted
        exact (mem_word (List.contains_iff_mem.mp dotted)).2.1 rfl
    · rw [wordsText_toList]
      intro none
      exact Nat.toDigits_ne_nil (List.append_eq_nil_iff.mp none).1

/-! ### Two colons in a row -/

theorem atDoubleColon?_append {piece : List Char} (noColon : ∀ char ∈ piece, char ≠ ':')
    (rest : List Char) : atDoubleColon? (piece ++ rest) =
      (atDoubleColon? rest).map fun halves => (piece ++ halves.1, halves.2) := by
  induction piece with
  | nil => simp
  | cons char piece inductionHypothesis =>
    obtain ⟨here, later⟩ := List.forall_mem_cons.mp noColon
    rw [List.cons_append, atDoubleColon?.eq_def]
    split
    · rename_i same
      exact absurd (List.cons.inj same).1 here
    · rename_i same
      obtain ⟨rfl, rfl⟩ := List.cons.inj same
      rw [inductionHypothesis later, Option.map_map]
      rfl
    · rename_i same
      cases same

theorem atDoubleColon?_colon {next : Char} (notColon : next ≠ ':') (rest : List Char) :
    atDoubleColon? (':' :: next :: rest) =
      (atDoubleColon? (next :: rest)).map fun halves => (':' :: halves.1, halves.2) := by
  rw [atDoubleColon?.eq_def]
  split
  · rename_i same
    exact absurd (List.cons.inj (List.cons.inj same).2).1 notColon
  · rename_i same
    obtain ⟨rfl, rfl⟩ := List.cons.inj same
    rfl
  · rename_i same
    cases same

/-- Words have no two colons in a row, neither between them nor where colons follow. -/
theorem atDoubleColon?_words (first : Nat) (rest : List Nat) (more : List Char) :
    atDoubleColon? ((Nat.toDigits 16 first ++ marked ':' (rest.map (Nat.toDigits 16))) ++ more) =
      (atDoubleColon? more).map fun halves =>
        ((Nat.toDigits 16 first ++ marked ':' (rest.map (Nat.toDigits 16))) ++ halves.1,
          halves.2) := by
  induction rest generalizing first with
  | nil =>
    rw [List.map_nil, marked, List.flatMap_nil, List.append_nil]
    exact atDoubleColon?_append (fun char member => (mem_word member).1) more
  | cons second rest inductionHypothesis =>
    have next := inductionHypothesis second
    obtain ⟨char, digits, isSecond⟩ := List.exists_cons_of_ne_nil
      (Nat.toDigits_ne_nil : Nat.toDigits 16 second ≠ [])
    have notColon : char ≠ ':' := (mem_word (isSecond ▸ List.mem_cons_self)).1
    rw [List.map_cons, marked, List.flatMap_cons, List.append_assoc,
      atDoubleColon?_append fun char member => (mem_word member).1]
    rw [isSecond] at next ⊢
    simp only [List.cons_append] at next ⊢
    rw [atDoubleColon?_colon notColon]
    unfold marked at next
    rw [next, Option.map_map, Option.map_map]
    simp [Function.comp_def]

theorem atDoubleColon?_wordsText (words : List Nat) :
    atDoubleColon? (wordsText words).toList = none := by
  cases words with
  | nil => rfl
  | cons first rest =>
    have cut := atDoubleColon?_words first rest []
    rw [List.append_nil] at cut
    rw [wordsText_toList, cut]
    rfl

theorem atDoubleColon?_between (words : List Nat) (more : List Char) :
    atDoubleColon? ((wordsText words).toList ++ ':' :: ':' :: more) =
      some ((wordsText words).toList, more) := by
  cases words with
  | nil => rfl
  | cons first rest =>
    rw [wordsText_toList, atDoubleColon?_words]
    simp [atDoubleColon?]

/-! ### The longest run of zeros -/

theorem mem_of_foldl {run : Type} {isBetter : run → Option run → Bool} {runs : List run}
    {best : Option run} {found : run}
    (isFound : runs.foldl (fun best run => if isBetter run best then some run else best) best =
      some found) :
    best = some found ∨ found ∈ runs ∧ ∃ other, isBetter found other = true := by
  induction runs generalizing best with
  | nil => exact .inl isFound
  | cons first runs inductionHypothesis =>
    rcases inductionHypothesis isFound with before | ⟨member, better⟩
    · dsimp only at before
      split at before
      · rename_i better
        cases before
        exact .inr ⟨List.mem_cons_self, best, better⟩
      · exact .inl before
    · exact .inr ⟨List.mem_cons_of_mem _ member, better⟩

/-- Where a run is found, there are so many zeros, and at least two. -/
theorem split_of_zeroRun? {words : List Nat} {start length : Nat}
    (found : zeroRun? words = some (start, length)) :
    2 ≤ length ∧
      words = words.take start ++ (List.replicate length 0 ++ words.drop (start + length)) := by
  unfold zeroRun? at found
  rcases mem_of_foldl found with none | ⟨member, other, better⟩
  · cases none
  obtain ⟨place, -, isRun⟩ := List.mem_map.mp member
  have twoOrMore : 2 ≤ length := by
    rw [Bool.and_eq_true, decide_eq_true_eq] at better
    exact better.1
  cases isRun
  refine ⟨twoOrMore, ?_⟩
  have zeros : (words.drop start).takeWhile (· == 0) =
      List.replicate ((words.drop start).takeWhile (· == 0)).length 0 := by
    refine List.eq_replicate_iff.mpr ⟨rfl, fun word inside => ?_⟩
    have isZero := List.mem_takeWhile_imp inside
    simpa using isZero
  have rest : words.drop (start + ((words.drop start).takeWhile (· == 0)).length) =
      (words.drop start).dropWhile (· == 0) := by
    rw [← List.drop_drop]
    exact (congrArg (List.drop _) List.takeWhile_append_dropWhile.symm).trans List.drop_left
  rw [← zeros, rest, List.takeWhile_append_dropWhile, List.take_append_drop]

/-- Eight words are read from the text that they are written as. -/
theorem ipv6?_ipv6Text {words : List Nat} (eight : words.length = 8)
    (small : ∀ word ∈ words, word < 65536) : ipv6? (ipv6Text words).toList = some words := by
  unfold ipv6Text ipv6?
  cases run : zeroRun? words with
  | none =>
    dsimp only
    rw [atDoubleColon?_wordsText, ipv6Words?_wordsText true small]
    simp [eight]
  | some found =>
    obtain ⟨start, length⟩ := found
    obtain ⟨two, split⟩ := split_of_zeroRun? run
    have sum := congrArg List.length split
    rw [List.length_append, List.length_append, List.length_replicate, eight] at sum
    have left : ∀ word ∈ words.take start, word < 65536 := fun word member =>
      small word (List.mem_of_mem_take member)
    have right : ∀ word ∈ words.drop (start + length), word < 65536 := fun word member =>
      small word (List.mem_of_mem_drop member)
    dsimp only
    rw [String.toList_append, String.toList_append, List.append_assoc,
      show "::".toList = [':', ':'] from rfl, List.cons_append, List.cons_append,
      List.nil_append, atDoubleColon?_between]
    dsimp only
    rw [ipv6Words?_wordsText false left, ipv6Words?_wordsText true right]
    show (if _ then none else some _) = some words
    refine (if_neg (by omega)).trans (congrArg some ?_)
    rw [List.append_assoc]
    have missing : 8 - (words.take start).length - (words.drop (start + length)).length =
        length := by omega
    rw [missing, ← split]

/-! ### Eight words that were read -/

theorem ipv6Word?_lt {digits : List Char} {word : Nat} (isWord : ipv6Word? digits = some word) :
    word < 65536 := by
  unfold ipv6Word? at isWord
  split at isWord
  · cases isWord
  · rename_i short
    have bound := numberIn?_lt isWord
    exact Nat.lt_of_lt_of_le bound
      (Nat.pow_le_pow_right (by decide) (Nat.le_of_not_lt fun long => short (.inr long)) :
        Nat.pow 16 digits.length ≤ Nat.pow 16 4)

theorem ipv6Byte?_lt {digits : List Char} {byte : Nat} (isByte : ipv6Byte? digits = some byte) :
    byte < 256 := by
  unfold ipv6Byte? at isByte
  split at isByte
  · cases isByte
  · cases isByte
    decide
  · cases isByte
  · simpa using (Option.filter_eq_some_iff.mp isByte).2

theorem ipv6Tail?_lt {piece : List Char} {words : List Nat}
    (isTail : ipv6Tail? piece = some words) : ∀ word ∈ words, word < 65536 := by
  unfold ipv6Tail? at isTail
  split at isTail
  · rename_i first second third fourth isRead
    have small := forall_mem_of_mapM (fun _ _ => ipv6Byte?_lt) isRead
    simp only [List.forall_mem_cons] at small
    cases isTail
    refine List.forall_mem_cons.mpr ⟨by omega, List.forall_mem_singleton.mpr (by omega)⟩
  · cases isTail

theorem ipv6Words?_lt {withTail : Bool} {chars : List Char} {words : List Nat}
    (areWords : ipv6Words? withTail chars = some words) : ∀ word ∈ words, word < 65536 := by
  unfold ipv6Words? at areWords
  split at areWords
  · cases areWords
    exact nofun
  · dsimp only at areWords
    split at areWords
    · obtain ⟨front, isFront, areWords⟩ := Option.bind_eq_some_iff.mp areWords
      obtain ⟨tail, isTail, areWords⟩ := Option.bind_eq_some_iff.mp areWords
      cases areWords
      intro word member
      rcases List.mem_append.mp member with inFront | inTail
      · exact forall_mem_of_mapM (fun _ _ => ipv6Word?_lt) isFront word inFront
      · exact ipv6Tail?_lt isTail word inTail
    · exact forall_mem_of_mapM (fun _ _ => ipv6Word?_lt) areWords

/-- An address that was read has eight words of 16 bits. -/
theorem eight_of_ipv6? {chars : List Char} {words : List Nat}
    (isAddress : ipv6? chars = some words) : words.length = 8 ∧ ∀ word ∈ words, word < 65536 := by
  unfold ipv6? at isAddress
  split at isAddress
  · obtain ⟨areWords, eight⟩ := Option.filter_eq_some_iff.mp isAddress
    exact ⟨by simpa using eight, ipv6Words?_lt areWords⟩
  · obtain ⟨left, isLeft, isAddress⟩ := Option.bind_eq_some_iff.mp isAddress
    obtain ⟨right, isRight, isAddress⟩ := Option.bind_eq_some_iff.mp isAddress
    split at isAddress
    · cases isAddress
    · cases isAddress
      refine ⟨?_, fun word member => ?_⟩
      · simp only [List.length_append, List.length_replicate]
        omega
      · rcases List.mem_append.mp member with front | inRight
        · rcases List.mem_append.mp front with inLeft | zero
          · exact ipv6Words?_lt isLeft word inLeft
          · rw [List.eq_of_mem_replicate zero]
            decide
        · exact ipv6Words?_lt isRight word inRight

end SecretRenewal.Url
