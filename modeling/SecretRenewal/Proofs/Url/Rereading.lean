/-
This file is about the text of a path that is read a second time. Without the slashes at its end it
is the text of the path without the empty segments at its end. Reading adds no character to a path,
and every segment of dots loses some; so the characters that are no slashes are counted, and a path
that has as many of them as before was read as it stands.
-/
import SecretRenewal.Proofs.Url.Forms
import Mathlib.Data.List.Induction

namespace SecretRenewal

namespace Url

open Text

/-! ### Slashes at the end -/

/-- Characters without the slashes at their end. -/
def withoutLast (chars : List Char) : List Char := (chars.reverse.dropWhile (· == '/')).reverse

section

variable {front back : List Char}

theorem withoutLast_append_of_nil (front : List Char) (empty : withoutLast back = []) :
    withoutLast (front ++ back) = withoutLast front := by
  have allSlashes : back.reverse.dropWhile (· == '/') = [] := List.reverse_eq_nil_iff.mp empty
  unfold withoutLast
  rw [List.reverse_append, List.dropWhile_append, allSlashes]
  rfl

theorem withoutLast_append_of_ne_nil (front : List Char) (more : withoutLast back ≠ []) :
    withoutLast (front ++ back) = front ++ withoutLast back := by
  have some : ¬(back.reverse.dropWhile (· == '/')).isEmpty = true := by
    rw [List.isEmpty_iff]
    exact fun empty => more (List.reverse_eq_nil_iff.mpr empty)
  unfold withoutLast
  rw [List.reverse_append, List.dropWhile_append, if_neg some, List.reverse_append,
    List.reverse_reverse]

/-- Nothing is taken off a text that ends in no slash. -/
theorem withoutLast_of_getLast? (last : front.getLast? ≠ some '/') : withoutLast front = front := by
  have stays : front.reverse.dropWhile (· == '/') = front.reverse := by
    rw [← List.head?_reverse] at last
    cases isReverse : front.reverse with
    | nil => rfl
    | cons char rest =>
      rw [isReverse] at last
      exact List.dropWhile_cons_of_neg (by
        rw [beq_iff_eq]
        exact fun isSlash => last (congrArg some isSlash))
  unfold withoutLast
  rw [stays, List.reverse_reverse]

theorem withoutLast_append (last : front.getLast? ≠ some '/') (back : List Char) :
    withoutLast (front ++ back) = front ++ withoutLast back := by
  by_cases empty : withoutLast back = []
  · rw [withoutLast_append_of_nil _ empty, withoutLast_of_getLast? last, empty, List.append_nil]
  · exact withoutLast_append_of_ne_nil _ empty

theorem withoutLast_sublist (chars : List Char) : (withoutLast chars).Sublist chars := by
  have fewer := (List.dropWhile_sublist (· == '/') (l := chars.reverse)).reverse
  rwa [List.reverse_reverse] at fewer

/-- Segments without the empty ones at their end, which are the slashes at the end of the path. -/
structure Stripped (segments front : List String) : Prop where
  split : ∃ count, segments = front ++ List.replicate count ""
  chars : withoutLast (pathChars segments) = pathChars front
  last : front.getLast? ≠ some ""

theorem exists_stripped {segments : List String}
    (apart : ∀ segment ∈ segments, ∀ char ∈ segment.toList, char ≠ '/') :
    ∃ front, Stripped segments front := by
  induction segments using List.reverseRecOn with
  | nil => exact ⟨[], ⟨0, rfl⟩, rfl, nofun⟩
  | append_singleton segments last inductionHypothesis =>
    obtain ⟨apartFront, apartLast⟩ := List.forall_mem_append.mp apart
    by_cases empty : last = ""
    · subst empty
      obtain ⟨front, ⟨count, isFront⟩, chars, notEmpty⟩ := inductionHypothesis apartFront
      refine ⟨front, ⟨count + 1, ?_⟩, ?_, notEmpty⟩
      · rw [List.replicate_succ', ← List.append_assoc, ← isFront]
      · rw [pathChars_append, withoutLast_append_of_nil _ rfl, chars]
    · refine ⟨segments ++ [last], ⟨0, (List.append_nil _).symm⟩, ?_, ?_⟩
      · obtain ⟨char, isLast⟩ : ∃ char, last.toList.getLast? = some char :=
          Option.ne_none_iff_exists'.mp fun none =>
            empty (String.toList_eq_nil_iff.mp (List.getLast?_eq_none_iff.mp none))
        refine withoutLast_of_getLast? ?_
        rw [pathChars_append, pathChars_cons, pathChars_nil, List.append_nil,
          List.getLast?_append, List.getLast?_cons, isLast]
        exact fun isSlash => apartLast last List.mem_cons_self char
          (List.mem_of_getLast? isLast) (Option.some.inj isSlash)
      · rw [List.getLast?_concat]
        exact fun isEmpty => empty (Option.some.inj isEmpty)

end

/-! ### Characters that are no slashes -/

/-- How many of the characters are no slashes. -/
def letters (chars : List Char) : Nat := chars.countP (· != '/')

theorem letters_append (front back : List Char) :
    letters (front ++ back) = letters front + letters back := List.countP_append

theorem letters_withoutLast (chars : List Char) : letters (withoutLast chars) = letters chars := by
  have parts := List.takeWhile_append_dropWhile (p := (· == '/')) (l := chars.reverse)
  have slashes : letters (chars.reverse.takeWhile (· == '/')) = 0 :=
    List.countP_eq_zero.mpr fun char member => by
      have isSlash := List.mem_takeWhile_imp member
      rw [eq_of_beq isSlash]
      exact nofun
  have all := congrArg letters parts
  rw [letters_append, slashes, Nat.zero_add] at all
  unfold withoutLast letters
  rw [List.countP_reverse]
  exact all.trans (List.countP_reverse)

theorem letters_pathChars_le (segments : List String) :
    letters (pathChars segments) ≤ weight segments := by
  induction segments with
  | nil => exact Nat.le_refl _
  | cons segment segments inductionHypothesis =>
    rw [pathChars_cons, weight_cons, letters, List.countP_cons_of_neg (by decide)]
    have here : segment.toList.countP (· != '/') ≤ segment.length := List.countP_le_length
    rw [List.countP_append]
    exact Nat.add_le_add here inductionHypothesis

theorem letters_pathChars {segments : List String}
    (apart : ∀ segment ∈ segments, ∀ char ∈ segment.toList, char ≠ '/') :
    letters (pathChars segments) = weight segments := by
  induction segments with
  | nil => rfl
  | cons segment segments inductionHypothesis =>
    obtain ⟨here, later⟩ := List.forall_mem_cons.mp apart
    have all : segment.toList.countP (· != '/') = segment.length :=
      List.countP_eq_length.mpr fun char member => bne_iff_ne.mpr (here char member)
    rw [pathChars_cons, weight_cons, letters, List.countP_cons_of_neg (by decide),
      List.countP_append, all]
    exact congrArg _ (inductionHypothesis later)

/-! ### Paths that are read again -/

theorem IsSegment.not_slash {scheme segment : String} (kept : IsSegment scheme segment) :
    ∀ char ∈ segment.toList, char ≠ '/' := by
  intro char member
  have apart := (kept char member).2
  simp only [isSlash, Bool.or_eq_false_iff, beq_eq_false_iff_ne] at apart
  exact apart.1

theorem isSegment_dot (scheme : String) : IsSegment scheme "." := by
  have chars : ".".toList = ['.'] := by decide +kernel
  unfold IsSegment
  rw [chars]
  refine List.forall_mem_singleton.mpr ?_
  cases isSpecial scheme <;> decide

section

variable {scheme : String} {segments : List String}

/-- A path that is read again has no more characters than it had, and those of dots are lost. -/
theorem letters_readPath_le (kept : ∀ segment ∈ segments, IsSegment scheme segment)
    (tail : List Char) (ends : ∀ char ∈ tail.head?, endsPath char = true) :
    letters (readPath scheme (pathChars segments ++ tail)).text.toList + segments.countP isDots ≤
      letters (pathChars segments) := by
  cases segments with
  | nil =>
    have noPath := (cut_pathChars kept ends).1
    unfold readPath
    dsimp only
    rw [noPath, pathChars_nil]
    dsimp only
    split <;> decide
  | cons first rest =>
    rw [readPath_pathChars kept tail ends, segments_text_toList,
      letters_pathChars fun segment member => (kept segment member).not_slash]
    have shorter := weight_follow_le kept { path := [] }
    have path := letters_pathChars_le
      (follow scheme { path := [] } ((first :: rest).map String.toList)).path.reverse
    rw [weight_reverse] at path
    rw [weight_nil] at shorter
    omega

/-- A path without dots is read from its own text. -/
theorem text_readPath (notFile : scheme ≠ "file")
    (kept : ∀ segment ∈ segments, IsSegment scheme segment)
    (noDots : ∀ segment ∈ segments, isDots segment = false) (some : segments ≠ []) :
    (readPath scheme (pathChars segments)).text.toList = pathChars segments := by
  obtain ⟨first, rest, rfl⟩ := List.exists_cons_of_ne_nil some
  have read := readPath_pathChars kept [] nofun
  rw [List.append_nil] at read
  rw [read, follow_of_names kept noDots _ fun file => absurd file notFile,
    List.append_nil, List.reverse_reverse, segments_text_toList]

/-- A dot in front of a path changes nothing. -/
theorem readPath_dot (kept : ∀ segment ∈ segments, IsSegment scheme segment)
    (some : segments ≠ []) (tail : List Char) (ends : ∀ char ∈ tail.head?, endsPath char = true) :
    readPath scheme (pathChars ("." :: segments) ++ tail) =
      readPath scheme (pathChars segments ++ tail) := by
  have keptAll : ∀ segment ∈ "." :: segments, IsSegment scheme segment :=
    List.forall_mem_cons.mpr ⟨isSegment_dot scheme, kept⟩
  obtain ⟨first, rest, rfl⟩ := List.exists_cons_of_ne_nil some
  obtain ⟨path, isPath, next⟩ := follow_of_isDots (isSegment_dot scheme) (by decide +kernel)
    { path := [] } ((first :: rest).map String.toList)
  have isNil : path = [] := by rcases isPath with rfl | rfl <;> rfl
  rw [readPath_pathChars keptAll tail ends, readPath_pathChars kept tail ends, List.map_cons, next,
    isNil]
  rfl

end

section

variable {first : String} {rest : List String}
  (kept : ∀ segment ∈ first :: rest, IsSegment "file" segment)

include kept

theorem letters_fileAt_le (tail : List Char) (ends : ∀ char ∈ tail.head?, endsPath char = true)
    (owner : Authority) :
    letters (fileAt owner (first.toList ++ pathChars rest ++ tail)).path.text.toList +
      (first :: rest).countP isDots ≤ weight (first :: rest) := by
  rw [fileAt_eq kept tail ends owner rfl]
  have shorter := weight_follow_le kept { path := [] }
  generalize follow "file" { path := [] } ((first :: rest).map String.toList) = walk at shorter
  have path := letters_pathChars_le (withoutLeadingEmpty walk.path.reverse)
  have fewer : weight (withoutLeadingEmpty walk.path.reverse) ≤ weight walk.path := by
    rw [← weight_reverse walk.path]
    unfold withoutLeadingEmpty
    split
    · exact Nat.zero_le _
    · exact weight_le_of_sublist (List.dropWhile_sublist _)
  rw [← segments_text_toList] at path
  rw [weight_nil] at shorter
  show letters (Path.segments (withoutLeadingEmpty walk.path.reverse)).text.toList + _ ≤ _
  omega

/-- A path of a file that keeps all of its characters has no dots. -/
theorem noDots_of_fileAt {others : List String}
    (keptOthers : ∀ segment ∈ others, IsSegment "file" segment)
    (sameWeight : weight (first :: rest) = weight others) {owner : Authority}
    (isPath : (fileAt owner (first.toList ++ pathChars rest)).path.text.toList =
      pathChars others) : ∀ segment ∈ first :: rest, isDots segment = false := by
  have shorter := letters_fileAt_le kept [] nofun owner
  rw [List.append_nil, isPath, sameWeight,
    letters_pathChars fun segment member => (keptOthers segment member).not_slash] at shorter
  have none : (first :: rest).countP isDots = 0 := by omega
  exact fun segment member => Bool.eq_false_iff.mpr (List.countP_eq_zero.mp none segment member)

theorem fileAt_of_names (noDots : ∀ segment ∈ first :: rest, isDots segment = false)
    (noDrive : isDrive first = false) (owner : Authority) :
    (fileAt owner (first.toList ++ pathChars rest)).authority = some owner ∧
      (fileAt owner (first.toList ++ pathChars rest)).path =
        .segments (withoutLeadingEmpty (first :: rest)) := by
  have walk := follow_of_names kept noDots { path := [] } fun _ _ other isFirst =>
    Option.some.inj isFirst ▸ noDrive
  have read := fileAt_eq kept [] nofun owner walk
  rw [List.append_nil, List.append_nil, List.reverse_reverse] at read
  rw [read]
  exact ⟨rfl, rfl⟩

/-- A path that begins with a drive is on no host. -/
theorem fileAt_of_isDrive (noDots : isDots first = false) (drive : isDrive first = true)
    (owner : Authority) :
    (fileAt owner (first.toList ++ pathChars rest)).authority = some { host := .name "" } := by
  have onDrive : (Walk.down "file" { path := [] } first.toList).onDrive = true := by
    unfold Walk.down
    dsimp only
    rw [if_pos ⟨rfl, rfl⟩, (kept first List.mem_cons_self).name_eq, if_pos drive]
  have stays : (follow "file" (Walk.down "file" { path := [] } first.toList)
      (rest.map String.toList)).onDrive = true := onDrive_follow _ onDrive
  rw [← follow_of_not_isDots (kept first List.mem_cons_self) noDots, ← List.map_cons] at stays
  have read := fileAt_eq kept [] nofun owner rfl
  rw [List.append_nil, stays] at read
  rw [read]
  rfl

end

end Url

end SecretRenewal
