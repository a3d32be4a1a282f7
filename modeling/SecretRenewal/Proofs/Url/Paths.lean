/-
This file proves that paths are read from their own text. Followed once, the segments of a path hold
no separator and nothing to escape, and as long as they stand for themselves they are found again
one by one. The two kinds of segments that do not are dots and, in front of the path of a file,
drives.
Following a path adds no character to it, and every segment of dots loses some, so a path that grew
when it was read again is out of the question.
-/
import SecretRenewal.Proofs.Url.Characters

namespace SecretRenewal.Url

open Text

/-! ### Segments as they are kept -/

/-- Whether a segment stands for the one in front of it or for nothing. -/
def isDots (segment : String) : Bool := isDoubleDot segment || isSingleDot segment

/-- A segment as it is kept once it was read. -/
def IsSegment (scheme segment : String) : Prop :=
  ∀ char ∈ segment.toList, escapedInPath char = false ∧ isSlash (isSpecial scheme) char = false

section

variable {scheme segment : String}

theorem isSegment_empty (scheme : String) : IsSegment scheme "" := List.forall_mem_nil _

theorem IsSegment.not_isGap (kept : IsSegment scheme segment) :
    ∀ char ∈ segment.toList, isGap char = false := fun char member =>
  not_isGap_of_not_isControl (not_isControl_of_path (kept char member).1)

theorem IsSegment.name_eq (kept : IsSegment scheme segment) :
    escape escapedInPath (solid segment.toList) = segment := by
  rw [solid_eq kept.not_isGap, escape_toList fun char member => (kept char member).1]

/-- The name of a segment is kept when no separator was in it. -/
theorem isSegment_escape {chars : List Char}
    (apart : ∀ char ∈ chars, isSlash (isSpecial scheme) char = false) :
    IsSegment scheme (escape escapedInPath chars) := by
  cases special : isSpecial scheme <;> rw [special] at apart <;> unfold IsSegment <;>
    rw [special] <;>
    exact forall_mem_escape (by decide) (by decide) fun char member plain =>
      ⟨plain, apart char member⟩

theorem isDots_empty : isDots "" = false := by decide +kernel

theorem length_pos_of_isDots (dots : isDots segment = true) : 0 < segment.length := by
  refine Nat.pos_of_ne_zero fun empty => ?_
  rw [String.length_eq_zero_iff.mp empty, isDots_empty] at dots
  cases dots

end

/-! ### One step down -/

/-- Where no gap parts a drive from what follows it, the segment is a single one. -/
theorem partedDrive?_of_not_isGap {segment : List Char}
    (noGap : ∀ char ∈ segment, isGap char = false) : partedDrive? segment = none := by
  have stays {chars : List Char} (noGap : ∀ char ∈ chars, isGap char = false) :
      chars.dropWhile isGap = chars := by
    cases chars with
    | nil => rfl
    | cons first rest =>
      exact List.dropWhile_cons_of_neg (by rw [noGap first List.mem_cons_self]; exact nofun)
  unfold partedDrive?
  rw [stays noGap]
  split
  · rename_i letter afterLetter
    obtain ⟨-, later⟩ := List.forall_mem_cons.mp noGap
    rw [stays later]
    split
    · rename_i gap rest
      have noGap := later gap (List.mem_cons_of_mem _ List.mem_cons_self)
      rw [noGap, Bool.and_false, Bool.false_and]
      rfl
    · rfl
  · rfl

section

variable {scheme segment : String} {walk : Walk}

/-- A segment goes on top of the path as it is, unless it is a drive in front of the path of a
file. -/
theorem Walk.down_of_name (kept : IsSegment scheme segment)
    (isName : scheme = "file" → walk.path = [] → isDrive segment = false) :
    walk.down scheme segment.toList = { walk with path := segment :: walk.path } := by
  unfold Walk.down
  dsimp only
  rw [kept.name_eq, partedDrive?_of_not_isGap kept.not_isGap]
  split
  · rename_i first
    rw [isName first.1 first.2, first.2]
    rfl
  · rfl

/-- How many characters the segments of a path have. -/
def weight : List String → Nat
  | [] => 0
  | segment :: path => segment.length + weight path

@[simp] theorem weight_nil : weight [] = 0 := rfl

@[simp] theorem weight_cons (segment : String) (path : List String) :
    weight (segment :: path) = segment.length + weight path := rfl

theorem weight_append (front back : List String) :
    weight (front ++ back) = weight front + weight back := by
  induction front with
  | nil => exact (Nat.zero_add _).symm
  | cons segment front inductionHypothesis =>
    rw [List.cons_append, weight_cons, weight_cons, inductionHypothesis, Nat.add_assoc]

theorem weight_reverse (path : List String) : weight path.reverse = weight path := by
  induction path with
  | nil => rfl
  | cons segment path inductionHypothesis =>
    rw [List.reverse_cons, weight_append, inductionHypothesis, weight_cons, weight_cons, weight_nil]
    omega

theorem length_driveWithColon (drive : isDrive segment = true) :
    (driveWithColon segment).length = segment.length := by
  unfold isDrive at drive
  unfold driveWithColon
  split at drive
  · rename_i letter mark isSegment
    rw [← String.length_toList, ← String.length_toList, String.toList_append,
      String.toList_ofList, isSegment]
    rfl
  · cases drive

theorem weight_down_le (kept : IsSegment scheme segment) (walk : Walk) :
    weight (walk.down scheme segment.toList).path ≤ segment.length + weight walk.path := by
  by_cases isName : scheme = "file" → walk.path = [] → isDrive segment = false
  · rw [Walk.down_of_name kept isName]
    exact Nat.le_refl _
  · simp only [Classical.not_imp, Bool.not_eq_false] at isName
    obtain ⟨file, first, drive⟩ := isName
    unfold Walk.down
    dsimp only
    rw [kept.name_eq, if_pos ⟨file, first⟩, if_pos drive]
    rw [weight_cons, length_driveWithColon drive, weight_nil]
    omega

theorem goUp_sublist (path : List String) : (goUp path).Sublist path := by
  cases path with
  | nil => exact List.Sublist.refl _
  | cons last above =>
    rw [goUp]
    split
    · exact List.Sublist.refl _
    · exact List.sublist_cons_self _ _

theorem weight_le_of_sublist {path other : List String} (fewer : path.Sublist other) :
    weight path ≤ weight other := by
  induction fewer with
  | slnil => exact Nat.le_refl _
  | cons segment _ inductionHypothesis => exact Nat.le_add_left_of_le inductionHypothesis
  | cons_cons segment _ inductionHypothesis => exact Nat.add_le_add_left inductionHypothesis _

end

/-! ### Following segments -/

/-- A path that ends in dots ends in a slash. -/
def afterDots (rest : List (List Char)) (path : List String) : List String :=
  if rest = [] then "" :: path else path

theorem follow_of_isDots {scheme segment : String} (kept : IsSegment scheme segment)
    (dots : isDots segment = true) (walk : Walk) (rest : List (List Char)) :
    ∃ path, (path = goUp walk.path ∨ path = walk.path) ∧
      follow scheme walk (segment.toList :: rest) =
        follow scheme { walk with path := afterDots rest path } rest := by
  rw [follow]
  dsimp only
  rw [kept.name_eq]
  split
  · exact ⟨_, .inl rfl, rfl⟩
  · rename_i notDouble
    have single : isSingleDot segment = true := (Bool.or_eq_true_iff.mp dots).resolve_left notDouble
    rw [if_pos single]
    exact ⟨_, .inr rfl, rfl⟩

theorem follow_of_not_isDots {scheme segment : String} (kept : IsSegment scheme segment)
    (noDots : isDots segment = false) (walk : Walk) (rest : List (List Char)) :
    follow scheme walk (segment.toList :: rest) =
      follow scheme (walk.down scheme segment.toList) rest := by
  obtain ⟨notDouble, notSingle⟩ := Bool.or_eq_false_iff.mp noDots
  rw [follow]
  dsimp only
  rw [kept.name_eq, notDouble, notSingle]
  rfl

theorem weight_afterDots (rest : List (List Char)) (path : List String) :
    weight (afterDots rest path) = weight path := by
  unfold afterDots
  split
  · exact Nat.zero_add _
  · rfl

section

variable {scheme : String} {segments : List String}

/-- Segments that stand for themselves are followed one by one. -/
theorem follow_of_names (kept : ∀ segment ∈ segments, IsSegment scheme segment)
    (noDots : ∀ segment ∈ segments, isDots segment = false) (walk : Walk)
    (isName : scheme = "file" → walk.path = [] →
      ∀ first ∈ segments.head?, isDrive first = false) :
    follow scheme walk (segments.map String.toList) =
      { walk with path := segments.reverse ++ walk.path } := by
  induction segments generalizing walk with
  | nil => rfl
  | cons segment rest inductionHypothesis =>
    obtain ⟨keptHere, keptLater⟩ := List.forall_mem_cons.mp kept
    obtain ⟨noDotsHere, noDotsLater⟩ := List.forall_mem_cons.mp noDots
    have next := inductionHypothesis keptLater noDotsLater
      { walk with path := segment :: walk.path } fun _ empty => absurd empty (List.cons_ne_nil _ _)
    rw [List.map_cons, follow_of_not_isDots keptHere noDotsHere,
      Walk.down_of_name keptHere fun file first => isName file first segment rfl, next,
      List.reverse_cons, List.append_assoc]
    rfl

/-- Following a path adds no character to it, and leaves out those of dots. -/
theorem weight_follow_le (kept : ∀ segment ∈ segments, IsSegment scheme segment) (walk : Walk) :
    weight (follow scheme walk (segments.map String.toList)).path + segments.countP isDots ≤
      weight walk.path + weight segments := by
  induction segments generalizing walk with
  | nil => exact Nat.le_refl _
  | cons segment rest inductionHypothesis =>
    obtain ⟨keptHere, keptLater⟩ := List.forall_mem_cons.mp kept
    rw [List.map_cons, weight_cons]
    cases dots : isDots segment with
    | true =>
      obtain ⟨path, isPath, next⟩ := follow_of_isDots keptHere dots walk (rest.map String.toList)
      have noMore : weight path ≤ weight walk.path := by
        rcases isPath with rfl | rfl
        · exact weight_le_of_sublist (goUp_sublist _)
        · exact Nat.le_refl _
      have later := inductionHypothesis keptLater
        { walk with path := afterDots (rest.map String.toList) path }
      rw [next, List.countP_cons_of_pos dots]
      rw [weight_afterDots] at later
      have := length_pos_of_isDots dots
      omega
    | false =>
      have later := inductionHypothesis keptLater (walk.down scheme segment.toList)
      have down := weight_down_le keptHere walk
      rw [follow_of_not_isDots keptHere dots, List.countP_cons_of_neg (by rw [dots]; exact nofun)]
      omega

/-- Once a path was found to begin with a drive, this is not forgotten. -/
theorem onDrive_follow (pieces : List (List Char)) {walk : Walk} (onDrive : walk.onDrive = true) :
    (follow scheme walk pieces).onDrive = true := by
  induction pieces generalizing walk with
  | nil => exact onDrive
  | cons piece rest inductionHypothesis =>
    rw [follow]
    dsimp only
    split
    · exact inductionHypothesis onDrive
    split
    · exact inductionHypothesis onDrive
    · refine inductionHypothesis ?_
      unfold Walk.down
      dsimp only
      split
      · split
        · rfl
        · split <;> exact onDrive
      · exact onDrive

/-! ### What is kept of a path -/

/-- Letters stand for themselves in a path and separate nothing. -/
theorem plain_of_isAlpha {letter : Char} (alpha : letter.isAlpha = true) (special : Bool) :
    escapedInPath letter = false ∧ isSlash special letter = false := by
  have ascii : letter.toNat < 128 := by
    have := isAlpha_iff.mp alpha
    omega
  refine of_ascii (motive := fun letter => letter.isAlpha = true →
    escapedInPath letter = false ∧ isSlash special letter = false) ascii ?_ alpha
  cases special <;> decide +kernel

theorem isSegment_letter_colon {letter : Char} (alpha : letter.isAlpha = true) :
    IsSegment scheme (String.ofList [letter, ':']) := by
  intro char member
  rw [String.toList_ofList] at member
  rcases List.mem_cons.mp member with rfl | last
  · exact plain_of_isAlpha alpha _
  · rw [List.mem_singleton.mp last]
    cases isSpecial scheme <;> decide

theorem isSegment_driveWithColon {segment : String} (drive : isDrive segment = true) :
    IsSegment scheme (driveWithColon segment) := by
  unfold isDrive at drive
  split at drive
  · rename_i letter mark isPair
    have isColon : driveWithColon segment = String.ofList [letter, ':'] := by
      rw [driveWithColon, isPair]
      exact (String.ofList_append).symm
    exact isColon ▸ isSegment_letter_colon (Bool.and_eq_true_iff.mp drive).1
  · cases drive

theorem isSegment_of_partedDrive? {piece : List Char} {drive rest : String}
    (apart : ∀ char ∈ piece, isSlash (isSpecial scheme) char = false)
    (parted : partedDrive? piece = some (drive, rest)) :
    IsSegment scheme drive ∧ IsSegment scheme rest := by
  unfold partedDrive? at parted
  split at parted
  · rename_i letter afterLetter isPiece
    split at parted
    · rename_i gap more isAfter
      split at parted
      · rename_i holds
        simp only [Bool.and_eq_true] at holds
        cases parted
        refine ⟨isSegment_letter_colon holds.1.1, isSegment_escape fun char member => ?_⟩
        have inMore : char ∈ more := (List.mem_filter.mp member).1
        have inAfter : char ∈ afterLetter.dropWhile isGap :=
          isAfter ▸ List.mem_cons_of_mem _ (List.mem_cons_of_mem _ inMore)
        have inPiece : char ∈ piece.dropWhile isGap :=
          isPiece ▸ List.mem_cons_of_mem _ ((List.dropWhile_sublist _).mem inAfter)
        exact apart char ((List.dropWhile_sublist _).mem inPiece)
      · cases parted
    · cases parted
  · cases parted

theorem forall_isSegment_down {walk : Walk} {piece : List Char}
    (kept : ∀ segment ∈ walk.path, IsSegment scheme segment)
    (apart : ∀ char ∈ piece, isSlash (isSpecial scheme) char = false) :
    ∀ segment ∈ (walk.down scheme piece).path, IsSegment scheme segment := by
  have isName : IsSegment scheme (escape escapedInPath (solid piece)) :=
    isSegment_escape fun char member => apart char (List.mem_filter.mp member).1
  unfold Walk.down
  dsimp only
  split
  · split
    · rename_i drive
      exact List.forall_mem_singleton.mpr (isSegment_driveWithColon drive)
    · split
      · rename_i drive rest parted
        obtain ⟨keptDrive, keptRest⟩ := isSegment_of_partedDrive? apart parted
        exact List.forall_mem_cons.mpr ⟨keptRest, List.forall_mem_singleton.mpr keptDrive⟩
      · exact List.forall_mem_singleton.mpr isName
  · exact List.forall_mem_cons.mpr ⟨isName, kept⟩

/-- What holds of the empty segment, and stays true of a path at each step down, holds of the
segments of every path that is followed. -/
theorem forall_follow {holds : String → Prop} (empty : holds "") {pieces : List (List Char)}
    (down : ∀ piece ∈ pieces, isDots (escape escapedInPath (solid piece)) = false →
      ∀ walk : Walk, (∀ segment ∈ walk.path, holds segment) →
        ∀ segment ∈ (walk.down scheme piece).path, holds segment)
    {walk : Walk} (above : ∀ segment ∈ walk.path, holds segment) :
    ∀ segment ∈ (follow scheme walk pieces).path, holds segment := by
  induction pieces generalizing walk with
  | nil => exact above
  | cons piece rest inductionHypothesis =>
    obtain ⟨downHere, downLater⟩ := List.forall_mem_cons.mp down
    have afterDots {path : List String} (above : ∀ segment ∈ path, holds segment) :
        ∀ segment ∈ afterDots rest path, holds segment := by
      unfold Url.afterDots
      split
      · exact List.forall_mem_cons.mpr ⟨empty, above⟩
      · exact above
    have up : ∀ segment ∈ goUp walk.path, holds segment := fun segment member =>
      above segment ((goUp_sublist _).mem member)
    rw [follow]
    dsimp only
    split
    · exact inductionHypothesis downLater (afterDots up)
    split
    · exact inductionHypothesis downLater (afterDots above)
    · rename_i notDouble notSingle
      have noDots := Bool.or_eq_false_iff.mpr
        ⟨Bool.eq_false_iff.mpr notDouble, Bool.eq_false_iff.mpr notSingle⟩
      exact inductionHypothesis downLater (downHere noDots walk above)

/-- Dots are followed wherever they stand, but for a file, whose drive may hide some. -/
theorem forall_not_isDots_follow (notFile : scheme ≠ "file") (pieces : List (List Char))
    {walk : Walk} (above : ∀ segment ∈ walk.path, isDots segment = false) :
    ∀ segment ∈ (follow scheme walk pieces).path, isDots segment = false := by
  refine forall_follow isDots_empty (fun piece _ noDots walk above => ?_) above
  unfold Walk.down
  dsimp only
  rw [if_neg fun file => notFile file.1]
  exact List.forall_mem_cons.mpr ⟨noDots, above⟩

/-- The segments that are read from characters. -/
theorem forall_isSegment_followWritten (chars : List Char) :
    ∀ segment ∈ (followWritten scheme [] chars).path, IsSegment scheme segment :=
  forall_follow (isSegment_empty scheme) (fun _ member _ _ kept =>
    forall_isSegment_down kept fun _ inside => isSeparator_of_mem_pieces member inside)
    (List.forall_mem_nil _)

end

/-! ### Paths in words -/

/-- The characters of a path of segments. -/
def pathChars (segments : List String) : List Char := marked '/' (segments.map String.toList)

@[simp] theorem pathChars_nil : pathChars [] = [] := rfl

@[simp] theorem pathChars_cons (segment : String) (segments : List String) :
    pathChars (segment :: segments) = '/' :: (segment.toList ++ pathChars segments) := rfl

theorem pathChars_append (front back : List String) :
    pathChars (front ++ back) = pathChars front ++ pathChars back := by
  unfold pathChars marked
  rw [List.map_append, List.flatMap_append]

theorem segments_text_toList (segments : List String) :
    (Path.segments segments).text.toList = pathChars segments := by
  show ("".intercalate (segments.map ("/" ++ ·))).toList = pathChars segments
  induction segments with
  | nil => rfl
  | cons segment segments inductionHypothesis =>
    cases segments with
    | nil =>
      rw [List.map_cons, List.map_nil, String.intercalate_singleton, String.toList_append]
      exact congrArg ('/' :: ·) (List.append_nil _).symm
    | cons second rest =>
      rw [List.map_cons, List.map_cons, String.intercalate_cons_cons, ← List.map_cons,
        String.append_empty, String.toList_append, inductionHypothesis, String.toList_append]
      rfl

section

variable {scheme : String} {segments : List String}

/-- A path ends nowhere inside of its segments. -/
theorem not_endsPath_of_mem_pathChars (kept : ∀ segment ∈ segments, IsSegment scheme segment)
    {char : Char} (member : char ∈ pathChars segments) :
    isControl char = false ∧ endsPath char = false := by
  obtain ⟨piece, isPiece, inside⟩ := List.mem_flatMap.mp member
  obtain ⟨segment, isSegment, rfl⟩ := List.mem_map.mp isPiece
  rcases List.mem_cons.mp inside with rfl | inside
  · decide
  · have plain := (kept segment isSegment char inside).1
    refine ⟨not_isControl_of_path plain, ?_⟩
    simp only [endsPath, Bool.or_eq_false_iff, beq_eq_false_iff_ne]
    exact ⟨ne_of_outside plain rfl, ne_of_outside plain rfl⟩

/-- A path is cut off what follows it. -/
theorem cut_pathChars (kept : ∀ segment ∈ segments, IsSegment scheme segment) {tail : List Char}
    (ends : ∀ char ∈ tail.head?, endsPath char = true) :
    ((pathChars segments ++ tail).takeWhile fun char => !endsPath char) = pathChars segments ∧
      ((pathChars segments ++ tail).dropWhile fun char => !endsPath char) = tail :=
  cut_at (fun char member => by rw [(not_endsPath_of_mem_pathChars kept member).2]; rfl)
    fun char first => by rw [ends char first]; rfl

/-- The segments of a path are cut apart again. -/
theorem pieces_pathChars {first : String} {rest : List String}
    (kept : ∀ segment ∈ first :: rest, IsSegment scheme segment) :
    pieces (isSlash (isSpecial scheme)) (first.toList ++ pathChars rest) =
      (first :: rest).map String.toList := by
  refine pieces_marked rfl fun piece member char inside => ?_
  have isPiece : piece ∈ (first :: rest).map String.toList := member
  obtain ⟨segment, isSegment, rfl⟩ := List.mem_map.mp isPiece
  exact (kept segment isSegment char inside).2

/-- Whatever is read as a path is made of such segments, with no dots among them. -/
theorem readPath_eq (notFile : scheme ≠ "file") (chars : List Char) : ∃ segments,
    readPath scheme chars = .segments segments ∧
      (∀ segment ∈ segments, IsSegment scheme segment) ∧
      ∀ segment ∈ segments, isDots segment = false := by
  unfold readPath
  dsimp only
  split
  · refine ⟨_, rfl, ?_⟩
    split
    · exact ⟨List.forall_mem_singleton.mpr (isSegment_empty scheme),
        List.forall_mem_singleton.mpr isDots_empty⟩
    · exact ⟨List.forall_mem_nil _, List.forall_mem_nil _⟩
  · exact ⟨_, rfl, fun segment member =>
      forall_isSegment_followWritten _ segment (List.mem_reverse.mp member),
      fun segment member => forall_not_isDots_follow notFile _ (List.forall_mem_nil _) segment
        (List.mem_reverse.mp member)⟩

theorem readPath_pathChars {first : String} {rest : List String}
    (kept : ∀ segment ∈ first :: rest, IsSegment scheme segment) (tail : List Char)
    (ends : ∀ char ∈ tail.head?, endsPath char = true) :
    readPath scheme (pathChars (first :: rest) ++ tail) = .segments
      (follow scheme { path := [] } ((first :: rest).map String.toList)).path.reverse := by
  unfold readPath
  dsimp only
  rw [(cut_pathChars kept ends).1, pathChars_cons]
  dsimp only
  rw [if_pos (show isSlash (isSpecial scheme) '/' = true from rfl), readSegments, followWritten,
    pieces_pathChars kept]
  rfl

end

end SecretRenewal.Url
