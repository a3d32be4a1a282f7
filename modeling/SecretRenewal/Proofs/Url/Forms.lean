/-
This file says which URLs there are once texts were read, and proves what is read after a scheme for
each of them. There are four forms: with a host, with a rooted path and no host, with a plain text
for a path, and the files. Only the last two depend on more than their first characters, a plain
text since nothing may look like a root and a file since a drive may stand where a host does.
-/
import SecretRenewal.Proofs.Url.Authorities
import SecretRenewal.Proofs.Url.Paths

namespace SecretRenewal

namespace Url

open Text

/-! ### Schemes -/

/-- A scheme as it is kept once it was read. -/
structure IsScheme (scheme : String) : Prop where
  letter : ∃ first rest, scheme.toList = first :: rest ∧ first.isAlpha = true
  each : ∀ char ∈ scheme.toList, isSchemeChar char = true ∧ char.toLower = char

theorem not_isGap_of_isSchemeChar {char : Char} (mayStand : isSchemeChar char = true) :
    isGap char = false := by
  rw [isSchemeChar_iff, isAlphanum_iff] at mayStand
  exact not_isGap_of_le (by omega)

section

variable {scheme : String} {chars rest : List Char}

/-- A scheme is cut off at its colon. -/
theorem IsScheme.splitScheme? (isScheme : IsScheme scheme) (rest : List Char) :
    splitScheme? (scheme.toList ++ ':' :: rest) = some (scheme, rest) := by
  obtain ⟨first, others, isFirst, letter⟩ := isScheme.letter
  have inside : ∀ char ∈ scheme.toList, (isSchemeChar char || isGap char) = true :=
    fun char member => by rw [(isScheme.each char member).1]; rfl
  have ends : ∀ char ∈ (':' :: rest).head?, (isSchemeChar char || isGap char) = false :=
    fun char first => by rw [← Option.some.inj first]; decide
  obtain ⟨front, back⟩ := cut_at inside ends
  have solidFront : solid scheme.toList = scheme.toList := solid_eq fun char member =>
    not_isGap_of_isSchemeChar (isScheme.each char member).1
  have lower : scheme.toList.map Char.toLower = scheme.toList :=
    (List.map_congr_left fun char member => (isScheme.each char member).2).trans (List.map_id _)
  unfold Url.splitScheme?
  dsimp only
  rw [front, back, solidFront]
  split
  · rename_i head tail more isFront isBack
    rw [isFirst] at isFront
    cases isFront
    cases isBack
    rw [if_pos letter, lower, String.ofList_toList]
  · rename_i noScheme
    exact absurd rfl (noScheme first others rest isFirst)

theorem isScheme_of_splitScheme? (split : splitScheme? chars = some (scheme, rest)) :
    IsScheme scheme := by
  unfold splitScheme? at split
  dsimp only at split
  split at split
  · rename_i first others more isFront isBack
    split at split
    · rename_i letter
      cases split
      refine ⟨⟨first.toLower, others.map Char.toLower, ?_, isAlpha_toLower letter⟩, ?_⟩
      · rw [String.toList_ofList, isFront, List.map_cons]
      · intro char member
        rw [String.toList_ofList] at member
        obtain ⟨written, isWritten, rfl⟩ := List.mem_map.mp member
        obtain ⟨inFront, noGap⟩ := List.mem_filter.mp isWritten
        have mayStand := List.mem_takeWhile_imp inFront
        rw [Bool.not_eq_true'] at noGap
        rw [noGap, Bool.or_false] at mayStand
        exact ⟨isSchemeChar_toLower mayStand, toLower_toLower written⟩
    · cases split
  · cases split

/-- Nothing is taken off a text whose first and last characters are visible. -/
theorem withoutEdges_eq {chars : List Char}
    (first : ∀ char ∈ chars.head?, ' ' < char) (last : ∀ char ∈ chars.getLast?, ' ' < char) :
    withoutEdges (String.ofList chars) = chars := by
  have stays {chars : List Char} (first : ∀ char ∈ chars.head?, ' ' < char) :
      chars.dropWhile (fun char => decide (char ≤ ' ')) = chars := by
    cases chars with
    | nil => rfl
    | cons char rest =>
      refine List.dropWhile_cons_of_neg ?_
      rw [decide_eq_true_eq]
      exact Char.not_le.mpr (first char rfl)
  unfold withoutEdges
  rw [String.toList_ofList]
  dsimp only
  rw [stays first, stays, List.reverse_reverse]
  rw [List.head?_reverse]
  exact last

/-- After a scheme, the rest of a text is read by its rules. -/
theorem parse_of_isScheme [DomainNames] (isScheme : IsScheme scheme)
    (last : ∀ char ∈ (':' :: chars).getLast?, ' ' < char) :
    parse (String.ofList (scheme.toList ++ ':' :: chars)) = readAfterScheme scheme chars := by
  obtain ⟨first, others, isFirst, letter⟩ := isScheme.letter
  unfold parse
  rw [withoutEdges_eq, isScheme.splitScheme?]
  · intro char isHead
    rw [isFirst] at isHead
    cases isHead
    rw [isAlpha_iff] at letter
    rw [Char.lt_def, UInt32.lt_iff_toNat_lt]
    show 32 < first.toNat
    omega
  · rw [List.getLast?_cons] at last
    rw [List.getLast?_append, List.getLast?_cons]
    exact last

end

/-! ### What is read after a scheme -/

theorem ne_file_of_not_special {scheme : String} (notSpecial : isSpecial scheme = false) :
    scheme ≠ "file" := by
  rintro rfl
  exact absurd notSpecial (by decide)

section

variable {scheme : String} {authority : Authority} {rest : List Char}

/-- After two slashes there are a host and a path. -/
theorem readAfterScheme_hosted [DomainNames] (notFile : scheme ≠ "file")
    (kept : authority.Kept scheme)
    (ends : ∀ char ∈ rest.head?, endsAuthority (isSpecial scheme) char = true)
    (noGap : ∀ char ∈ rest, isGap char = false) :
    readAfterScheme scheme ('/' :: '/' :: (authority.chars ++ rest)) =
      .ok (withSuffix ⟨scheme, some authority, readPath scheme rest, none, none⟩ rest) := by
  have noGaps : ∀ char ∈ authority.chars ++ rest, isGap char = false := by
    intro char member
    rcases List.mem_append.mp member with front | back
    · exact not_isGap_of_not_isControl (kept.mem_chars front).1
    · exact noGap char back
  have isSolid : solid ('/' :: '/' :: (authority.chars ++ rest)) =
      '/' :: '/' :: (authority.chars ++ rest) :=
    congrArg ('/' :: '/' :: ·) (solid_eq noGaps)
  have isRead : readAfterSlashes scheme (authority.chars ++ rest) =
      .ok (withSuffix ⟨scheme, some authority, readPath scheme rest, none, none⟩ rest) := by
    unfold readAfterSlashes
    rw [kept.readAuthority_chars ends]
    rfl
  unfold readAfterScheme
  rw [if_neg notFile]
  dsimp only
  rw [isSolid]
  cases special : isSpecial scheme with
  | false => exact isRead
  | true =>
    obtain ⟨first, more, isFirst⟩ := List.exists_cons_of_ne_nil (kept.chars_ne_nil special)
    have goesOn : isSlash true first = false := by
      have := (kept.mem_chars (isFirst ▸ List.mem_cons_self)).2
      simp only [endsAuthority, Bool.or_eq_false_iff] at this
      exact this.1.1
    have noSlash : ¬isSlash true first = true := Bool.eq_false_iff.mp goesOn
    rw [if_pos rfl, List.dropWhile_cons_of_pos rfl, List.dropWhile_cons_of_pos rfl, isFirst,
      List.cons_append, List.dropWhile_cons_of_neg noSlash, ← List.cons_append, ← isFirst]
    exact isRead

/-- A single slash begins a path without a host. -/
theorem readAfterScheme_rooted [DomainNames] (notSpecial : isSpecial scheme = false)
    (single : rest.head? ≠ some '/') (noGap : ∀ char ∈ rest, isGap char = false) :
    readAfterScheme scheme ('/' :: rest) =
      .ok (withSuffix ⟨scheme, none, readPath scheme ('/' :: rest), none, none⟩ ('/' :: rest)) := by
  have isSolid : solid ('/' :: rest) = '/' :: rest := congrArg ('/' :: ·) (solid_eq noGap)
  unfold readAfterScheme
  rw [if_neg (ne_file_of_not_special notSpecial)]
  dsimp only
  rw [isSolid, notSpecial, if_neg nofun]
  split
  · rename_i isRest
    exact absurd (congrArg List.head? (List.cons.inj isRest).2) single
  · rfl
  · rename_i noRoot
    exact absurd rfl (noRoot rest)

/-- Without a slash, the path is a plain text. -/
theorem readAfterScheme_plain [DomainNames] (notSpecial : isSpecial scheme = false)
    (noSlash : rest.head? ≠ some '/') (noGap : ∀ char ∈ rest, isGap char = false) :
    readAfterScheme scheme rest = .ok (withSuffix
      ⟨scheme, none, .plain (escape isControl (rest.takeWhile fun char => !endsPath char)), none,
        none⟩ rest) := by
  unfold readAfterScheme
  rw [if_neg (ne_file_of_not_special notSpecial)]
  dsimp only
  rw [solid_eq noGap, notSpecial, if_neg nofun]
  split
  · exact absurd rfl noSlash
  · exact absurd rfl noSlash
  · rfl

end

theorem readAfterScheme_file [DomainNames] (chars : List Char) :
    readAfterScheme "file" chars = readFile chars := if_pos rfl

@[simp] theorem withSuffix_path (url : Url) (chars : List Char) :
    (withSuffix url chars).path = url.path := rfl

/-! ### What is read of a file -/

theorem afterSlash?_slash (rest : List Char) : afterSlash? ('/' :: rest) = some rest := rfl

theorem afterSlash?_of_not_isSlash {first : Char} (noSlash : isSlash true first = false)
    (noGap : isGap first = false) (rest : List Char) : afterSlash? (first :: rest) = none := by
  unfold afterSlash?
  rw [List.dropWhile_cons_of_neg (by rw [noGap]; exact nofun)]
  dsimp only
  rw [noSlash]
  rfl

/-- Without a host, a file may have a single slash. -/
theorem readFile_slash [DomainNames] {first : Char} (noSlash : isSlash true first = false)
    (noGap : isGap first = false) (rest : List Char) :
    readFile ('/' :: first :: rest) = .ok (fileAt { host := .name "" } (first :: rest)) := by
  unfold readFile
  rw [afterSlash?_slash]
  dsimp only
  rw [afterSlash?_of_not_isSlash noSlash noGap]
  rfl

/-- Without a host, the third slash ends an empty segment. -/
theorem readFile_slashes [DomainNames] (rest : List Char) :
    readFile ('/' :: '/' :: '/' :: rest) = .ok (fileAt { host := .name "" } ('/' :: rest)) := by
  unfold readFile
  rw [afterSlash?_slash]
  dsimp only
  rw [afterSlash?_slash]
  rfl

/-- The slash after a host belongs to no segment. -/
theorem readFile_hosted [DomainNames] {host : Host} (kept : host.Kept true)
    (notHere : host ≠ .name "localhost") (rest : List Char) :
    readFile ('/' :: '/' :: (host.text.toList ++ '/' :: rest)) = .ok (fileAt { host } rest) := by
  have inside : ∀ char ∈ host.text.toList, (!endsAuthority true char) = true :=
    fun char member => by rw [(kept.mem_text member).2.2]; rfl
  have ends : ∀ char ∈ ('/' :: rest).head?, (!endsAuthority true char) = false :=
    fun char first => by rw [← Option.some.inj first]; rfl
  obtain ⟨front, back⟩ := cut_at inside ends
  have isSolid : solid host.text.toList = host.text.toList := solid_eq fun char member =>
    not_isGap_of_not_isControl (kept.mem_text member).1
  unfold readFile
  rw [afterSlash?_slash]
  dsimp only
  rw [afterSlash?_slash]
  dsimp only
  rw [front, back, isSolid, String.ofList_toList, kept.not_isDrive, if_neg nofun,
    if_neg kept.text_ne_nil, ← Host.read_true, kept.read_text]
  exact if_neg notHere

/-- The path of a file is followed from its segments, of which the first may be a drive. -/
theorem fileAt_eq {first : String} {rest : List String}
    (kept : ∀ segment ∈ first :: rest, IsSegment "file" segment) (tail : List Char)
    (ends : ∀ char ∈ tail.head?, endsPath char = true) (owner : Authority) {walk : Walk}
    (isWalk : follow "file" { path := [] } ((first :: rest).map String.toList) = walk) :
    fileAt owner (first.toList ++ pathChars rest ++ tail) = withSuffix
      ⟨"file", some (if walk.onDrive then { host := .name "" } else owner),
        .segments (withoutLeadingEmpty walk.path.reverse), none, none⟩
      (solid (first.toList ++ pathChars rest ++ tail)) := by
  have inside : ∀ char ∈ first.toList ++ pathChars rest, (!endsPath char) = true := by
    intro char member
    rw [(not_endsPath_of_mem_pathChars kept (List.mem_cons_of_mem _ member)).2]
    rfl
  have stops : ∀ char ∈ tail.head?, (!endsPath char) = false := fun char first => by
    rw [ends char first]
    rfl
  unfold fileAt followWritten
  dsimp only
  rw [(cut_at inside stops).1, pieces_pathChars kept, List.reverse_nil, isWalk]

/-! ### URLs as they are kept -/

/-- The forms that a scheme with what follows it may have. -/
inductive Form [DomainNames] : (scheme : String) → Option Authority → Path → Prop
  /-- A host, and a path below it. -/
  | hosted {scheme : String} {authority : Authority} {segments : List String}
      (notFile : scheme ≠ "file") (kept : authority.Kept scheme)
      (path : ∀ segment ∈ segments, IsSegment scheme segment)
      (noDots : ∀ segment ∈ segments, isDots segment = false) :
      Form scheme (some authority) (.segments segments)
  /-- A path and no host. -/
  | rooted {scheme : String} {segments : List String} (notSpecial : isSpecial scheme = false)
      (path : ∀ segment ∈ segments, IsSegment scheme segment)
      (noDots : ∀ segment ∈ segments, isDots segment = false) :
      Form scheme none (.segments segments)
  /-- A text that does not look like a path. -/
  | plain {scheme text : String} (notSpecial : isSpecial scheme = false)
      (each : ∀ char ∈ text.toList, isControl char = false ∧ endsPath char = false)
      (noSlash : text.toList.head? ≠ some '/') :
      Form scheme none (.plain text)
  /-- A file, perhaps on a host. -/
  | file {host : Host} {first : String} {rest : List String}
      (kept : host = .name "" ∨ host.Kept true ∧ host ≠ .name "localhost")
      (path : ∀ segment ∈ first :: rest, IsSegment "file" segment)
      (named : first = "" → rest = []) :
      Form "file" (some { host }) (.segments (first :: rest))

end Url

/-- A URL as it is kept once it was read. -/
structure Url.Kept [DomainNames] (url : Url) : Prop where
  scheme : Url.IsScheme url.scheme
  form : Url.Form url.scheme url.authority url.path
  query : ∀ query ∈ url.query, ∀ char ∈ query.toList, Url.isControl char = false
  fragment : ∀ fragment ∈ url.fragment, ∀ char ∈ fragment.toList, Url.isControl char = false

namespace Url

/-- What stands at the end of a URL has been escaped. -/
theorem Kept.withSuffix [DomainNames] {url : Url} (scheme : IsScheme url.scheme)
    (form : Form url.scheme url.authority url.path) (chars : List Char) :
    (withSuffix url chars).Kept := by
  refine ⟨scheme, form, fun query isQuery char member => ?_,
    fun fragment isFragment char member => ?_⟩
  · unfold Url.withSuffix readSuffix at isQuery
    dsimp only at isQuery
    split at isQuery
    · cases isQuery
      exact not_isControl_of_query (not_escaped_of_mem (isSound_escapedInQuery _) member)
    · cases isQuery
  · unfold Url.withSuffix readSuffix at isFragment
    dsimp only at isFragment
    split at isFragment
    · cases isFragment
      exact not_isControl_of_fragment (not_escaped_of_mem isSound_escapedInFragment member)
    · cases isFragment

/-- The first character stays the first one, or a percent sign takes its place. -/
theorem head?_escape {isEscaped : Char → Bool} (chars : List Char) :
    (escape isEscaped chars).toList.head? =
      chars.head?.map fun char => if isEscaped char then '%' else char := by
  unfold escape
  rw [String.toList_ofList]
  cases chars with
  | nil => rfl
  | cons char chars =>
    rw [List.flatMap_cons]
    cases escaped : isEscaped char with
    | false =>
      rw [List.head?_cons, Option.map_some, escaped]
      rfl
    | true =>
      have bytes : String.utf8EncodeChar char ≠ [] := by
        rw [← List.length_pos_iff, String.length_utf8EncodeChar]
        exact char.utf8Size_pos
      obtain ⟨byte, more, isBytes⟩ := List.exists_cons_of_ne_nil bytes
      rw [isBytes, List.head?_cons, Option.map_some, escaped]
      rfl

theorem kept_of_readAfterSlashes [DomainNames] {scheme : String} (notFile : scheme ≠ "file")
    (isScheme : IsScheme scheme) {chars : List Char} {url : Url}
    (read : readAfterSlashes scheme chars = .ok url) : url.Kept := by
  obtain ⟨⟨authority, rest⟩, isAuthority, made⟩ := value_of_bind read
  cases made
  obtain ⟨segments, isPath, kept, noDots⟩ := readPath_eq notFile rest
  refine Kept.withSuffix isScheme ?_ rest
  dsimp only
  rw [isPath]
  exact .hosted notFile (Authority.kept_of_readAuthority isAuthority) kept noDots

theorem isScheme_of_all {scheme : String}
    (letter : scheme.toList.head?.any Char.isAlpha = true)
    (each : (scheme.toList.all fun char => isSchemeChar char && char.toLower == char) = true) :
    IsScheme scheme where
  letter := by
    cases isFirst : scheme.toList with
    | nil =>
      rw [isFirst] at letter
      cases letter
    | cons first rest =>
      rw [isFirst] at letter
      exact ⟨first, rest, rfl, letter⟩
  each := fun char member =>
    have both := Bool.and_eq_true_iff.mp (List.all_eq_true.mp each char member)
    ⟨both.1, eq_of_beq both.2⟩

theorem isScheme_file : IsScheme "file" :=
  isScheme_of_all (by decide +kernel) (by decide +kernel)

theorem withoutLeadingEmpty_eq (segments : List String) : ∃ first rest,
    withoutLeadingEmpty segments = first :: rest ∧ (first = "" → rest = []) ∧
      ∀ segment ∈ first :: rest, segment = "" ∨ segment ∈ segments := by
  unfold withoutLeadingEmpty
  split
  · exact ⟨"", [], rfl, fun _ => rfl, List.forall_mem_singleton.mpr (.inl rfl)⟩
  · rename_i notEmpty
    obtain ⟨first, rest, isKept⟩ := List.exists_cons_of_ne_nil notEmpty
    refine ⟨first, rest, isKept, fun empty => ?_, fun segment member => .inr ?_⟩
    · have notEmpty := List.head?_dropWhile_not (· == "") segments
      rw [isKept] at notEmpty
      exact absurd empty (beq_eq_false_iff_ne.mp notEmpty)
    · exact (List.dropWhile_sublist _).mem (isKept ▸ member)

theorem kept_fileAt [DomainNames] {host : Host}
    (kept : host = .name "" ∨ host.Kept true ∧ host ≠ .name "localhost") (chars : List Char) :
    (fileAt { host } chars).Kept := by
  unfold fileAt
  dsimp only
  obtain ⟨first, rest, isPath, named, fromWalk⟩ := withoutLeadingEmpty_eq
    (followWritten "file" [] (chars.takeWhile (!endsPath ·))).path.reverse
  have path : ∀ segment ∈ first :: rest, IsSegment "file" segment := by
    intro segment member
    rcases fromWalk segment member with rfl | inWalk
    · exact isSegment_empty _
    · exact forall_isSegment_followWritten _ segment (List.mem_reverse.mp inWalk)
  refine Kept.withSuffix isScheme_file ?_ _
  dsimp only
  rw [isPath]
  split
  · exact .file (.inl rfl) path named
  · exact .file kept path named

theorem kept_of_readFile [DomainNames] {chars : List Char} {url : Url}
    (read : readFile chars = .ok url) :
    url.Kept := by
  have here (chars : List Char) : (fileAt { host := .name "" } chars).Kept :=
    kept_fileAt (.inl rfl) chars
  unfold readFile at read
  split at read
  · cases read
    exact here _
  split at read
  · cases read
    exact here _
  dsimp only at read
  split at read
  · cases read
    exact here _
  split at read
  · cases read
    exact here _
  obtain ⟨host, isHost, read⟩ := value_of_bind read
  split at read
  · cases read
    exact here _
  · rename_i notHere
    cases read
    exact kept_fileAt (.inr ⟨Host.kept_of_read isHost, notHere⟩) _

/-- What is taken for a plain text looks like no root afterwards. -/
theorem form_plain [DomainNames] {scheme : String} (notSpecial : isSpecial scheme = false)
    {chars : List Char} (noSlash : ∀ more, chars ≠ '/' :: more) : Form scheme none
      (.plain (escape isControl (chars.takeWhile fun char => !endsPath char))) := by
  have goesOn : ∀ char ∈ (escape isControl (chars.takeWhile fun char => !endsPath char)).toList,
      endsPath char = false := by
    refine forall_mem_escape (by decide) (by decide) fun char inside _ => ?_
    have goesOn := List.mem_takeWhile_imp inside
    rwa [Bool.not_eq_true'] at goesOn
  refine .plain notSpecial (fun char member => ?_) ?_
  · exact ⟨not_escaped_of_mem isSound_isControl member, goesOn char member⟩
  · rw [head?_escape]
    cases chars with
    | nil => exact nofun
    | cons first rest =>
      rw [List.takeWhile_cons]
      split
      · rw [List.head?_cons, Option.map_some]
        intro isSlash
        replace isSlash := Option.some.inj isSlash
        split at isSlash
        · exact absurd isSlash (by decide)
        · exact noSlash rest (congrArg (· :: rest) isSlash)
      · exact nofun

/-- Every URL that is read is kept in one of the forms. -/
theorem kept_of_parse [DomainNames] {text : String} {url : Url} (read : parse text = .ok url) :
    url.Kept := by
  unfold parse at read
  split at read
  · rename_i scheme rest split
    have isScheme := isScheme_of_splitScheme? split
    unfold readAfterScheme at read
    split at read
    · exact kept_of_readFile read
    · rename_i notFile
      dsimp only at read
      split at read
      · exact kept_of_readAfterSlashes notFile isScheme read
      rename_i notSpecial
      rw [Bool.not_eq_true] at notSpecial
      split at read
      · exact kept_of_readAfterSlashes notFile isScheme read
      · cases read
        obtain ⟨segments, isPath, kept, noDots⟩ := readPath_eq notFile (solid rest)
        refine Kept.withSuffix isScheme ?_ _
        dsimp only
        rw [isPath]
        exact .rooted notSpecial kept noDots
      · rename_i noSlashes noSlash
        cases read
        exact Kept.withSuffix isScheme (form_plain notSpecial fun more => noSlash more) _
  · cases read

end Url

end SecretRenewal
