/-
This file proves that nothing can be put behind a URL that has a query or a fragment: whatever is
put there belongs to it, and the path that is read is no longer than it was. With what is known of
URLs that end in their path, this says of every URL whether names can be put behind it.
-/
import SecretRenewal.Proofs.Url.Extensions

namespace SecretRenewal

namespace Url

open Text

/-! ### Paths with something behind them -/

/-- What begins with a question mark or a number sign. -/
structure IsTail (tail : List Char) : Prop where
  first : ∃ char rest, tail = char :: rest ∧ endsPath char = true
  noGap : ∀ char ∈ tail, isGap char = false

section

variable {scheme : String} {tail : List Char}

theorem IsTail.ends (isTail : IsTail tail) : ∀ char ∈ tail.head?, endsPath char = true := by
  obtain ⟨first, rest, rfl, ends⟩ := isTail.first
  rintro _ ⟨⟩
  exact ends

theorem IsTail.noSlash (isTail : IsTail tail) : tail.head? ≠ some '/' := fun isSlash =>
  absurd (isTail.ends '/' isSlash) (by decide)

theorem short_of_hosted [DomainNames] (isTail : IsTail tail) (notFile : scheme ≠ "file")
    {authority : Authority} (kept : authority.Kept scheme) {segments : List String}
    (path : ∀ segment ∈ segments, IsSegment scheme segment) :
    ∃ found, readAfterScheme scheme
        ('/' :: '/' :: (authority.chars ++ (pathChars segments ++ tail))) = .ok found ∧
      letters found.path.text.toList ≤ letters (pathChars segments) := by
  have ends : ∀ char ∈ (pathChars segments ++ tail).head?,
      endsAuthority (isSpecial scheme) char = true := by
    cases segments with
    | nil =>
      intro char first
      have ends := isTail.ends char first
      unfold endsAuthority
      rw [Bool.or_assoc]
      exact (congrArg _ ends).trans (Bool.or_true _)
    | cons first rest =>
      rintro _ ⟨⟩
      rfl
  have noGap : ∀ char ∈ pathChars segments ++ tail, isGap char = false := by
    intro char member
    rcases List.mem_append.mp member with inPath | inTail
    · exact not_isGap_of_not_isControl (not_endsPath_of_mem_pathChars path inPath).1
    · exact isTail.noGap char inTail
  refine ⟨_, readAfterScheme_hosted notFile kept ends noGap, ?_⟩
  exact Nat.le_trans (Nat.le_add_right _ _) (letters_readPath_le path tail isTail.ends)

theorem short_of_rooted [DomainNames] (isTail : IsTail tail) (notSpecial : isSpecial scheme = false)
    {segments : List String} (path : ∀ segment ∈ segments, IsSegment scheme segment) :
    ∃ found, readAfterScheme scheme
        ((pathGuard ⟨scheme, none, .segments segments, none, none⟩).toList ++
          pathChars segments ++ tail) = .ok found ∧
      letters found.path.text.toList ≤ letters (pathChars segments) := by
  rcases pathGuard_rooted scheme segments none none with dot | ⟨noGuard, single⟩
  · have keptAll : ∀ segment ∈ "." :: segments, IsSegment scheme segment :=
      List.forall_mem_cons.mpr ⟨isSegment_dot scheme, path⟩
    have read := readAfterScheme_pathChars notSpecial keptAll (.inl (by decide +kernel))
      isTail.noGap
    have shorter := letters_readPath_le keptAll tail isTail.ends
    rw [List.countP_cons_of_pos (by decide +kernel)] at shorter
    have isGuard : "/.".toList = pathChars ["."] := by decide +kernel
    have chars : pathChars ("." :: segments) = pathChars ["."] ++ pathChars segments :=
      pathChars_append ["."] segments
    have dotLetters : letters (pathChars ["."]) = 1 := by decide +kernel
    rw [chars, letters_append, dotLetters] at shorter
    rw [chars] at read
    rw [dot, isGuard]
    refine ⟨_, read, ?_⟩
    dsimp only [withSuffix_path]
    omega
  · rw [noGuard, String.toList_empty, List.nil_append]
    cases segments with
    | nil =>
      refine ⟨_, readAfterScheme_plain notSpecial isTail.noSlash isTail.noGap, ?_⟩
      have noText : (pathChars [] ++ tail).takeWhile (fun char => !endsPath char) = [] :=
        (cut_pathChars path isTail.ends).1
      rw [withSuffix_path, noText]
      exact Nat.le_refl _
    | cons first rest =>
      have isRoot : first ≠ "" ∨ rest = [] ∧ tail.head? ≠ some '/' := by
        cases rest with
        | nil => exact .inr ⟨rfl, isTail.noSlash⟩
        | cons second others => exact .inl fun empty => single second others (empty ▸ rfl)
      refine ⟨_, readAfterScheme_pathChars notSpecial path isRoot isTail.noGap, ?_⟩
      exact Nat.le_trans (Nat.le_add_right _ _) (letters_readPath_le path tail isTail.ends)

theorem short_of_plain [DomainNames] (isTail : IsTail tail) (notSpecial : isSpecial scheme = false)
    {text : String} (each : ∀ char ∈ text.toList, isControl char = false ∧ endsPath char = false)
    (noSlash : text.toList.head? ≠ some '/') :
    ∃ found, readAfterScheme scheme (text.toList ++ tail) = .ok found ∧
      letters found.path.text.toList ≤ letters text.toList := by
  have noRoot : (text.toList ++ tail).head? ≠ some '/' := by
    cases isText : text.toList with
    | nil => exact isTail.noSlash
    | cons first rest =>
      rw [isText] at noSlash
      exact noSlash
  have noGap : ∀ char ∈ text.toList ++ tail, isGap char = false := by
    intro char member
    rcases List.mem_append.mp member with inText | inTail
    · exact not_isGap_of_not_isControl (each char inText).1
    · exact isTail.noGap char inTail
  have isText : (text.toList ++ tail).takeWhile (fun char => !endsPath char) = text.toList :=
    (cut_at (fun char member => by rw [(each char member).2]; rfl) fun char first => by
      rw [isTail.ends char first]
      rfl).1
  refine ⟨_, readAfterScheme_plain notSpecial noRoot noGap, ?_⟩
  rw [withSuffix_path, isText, escape_toList fun char member => (each char member).1]
  exact Nat.le_refl _

theorem short_of_file [DomainNames] (isTail : IsTail tail) {host : Host}
    (kept : host = .name "" ∨ host.Kept true ∧ host ≠ .name "localhost") {first : String}
    {rest : List String} (path : ∀ segment ∈ first :: rest, IsSegment "file" segment) :
    ∃ found, readAfterScheme "file"
        ('/' :: '/' :: (Authority.chars { host } ++ (pathChars (first :: rest) ++ tail))) =
          .ok found ∧
      letters found.path.text.toList ≤ letters (pathChars (first :: rest)) := by
  rw [readAfterScheme_file, chars_host,
    letters_pathChars fun segment member => (path segment member).not_slash]
  rcases kept with rfl | ⟨kept, notHere⟩
  · have keptAll : ∀ segment ∈ "" :: first :: rest, IsSegment "file" segment :=
      List.forall_mem_cons.mpr ⟨isSegment_empty _, path⟩
    refine ⟨_, readFile_slashes _, ?_⟩
    have shorter := letters_fileAt_le keptAll tail isTail.ends { host := .name "" }
    exact Nat.le_trans (Nat.le_add_right _ _)
      (Nat.le_trans shorter (Nat.le_of_eq (Nat.zero_add _)))
  · refine ⟨_, readFile_hosted kept notHere _, ?_⟩
    exact Nat.le_trans (Nat.le_add_right _ _) (letters_fileAt_le path tail isTail.ends { host })

end

/-! ### Names behind any URL -/

/-- A text that may be missing is written with its sign in front. -/
theorem toList_elim (sign : Char) (text? : Option String) :
    (text?.elim "" (String.singleton sign ++ ·)).toList =
      text?.elim [] fun text => sign :: text.toList := by
  cases text? with
  | none => rfl
  | some text =>
    rw [Option.elim_some, Option.elim_some, String.toList_append, String.toList_singleton]
    rfl

theorem toList_text (url : Url) :
    url.text.toList = url.scheme.toList ++ ':' :: url.restChars := by
  have ofHost : (url.authority.elim "" fun authority =>
      "//" ++ authority.userText ++ authority.hostText).toList = hostChars url.authority := by
    unfold hostChars
    cases url.authority with
    | none => rfl
    | some authority =>
      rw [Option.elim_some, Option.elim_some, String.toList_append, String.toList_append,
        List.append_assoc]
      rfl
  have ofQuery : (url.query.elim "" ("?" ++ ·)).toList =
      url.query.elim [] fun query => '?' :: query.toList := toList_elim '?' url.query
  have ofFragment : (url.fragment.elim "" ("#" ++ ·)).toList =
      url.fragment.elim [] fun fragment => '#' :: fragment.toList := toList_elim '#' url.fragment
  have colon : ":".toList = [':'] := by decide +kernel
  unfold text restChars suffixChars
  simp only [String.toList_append, ofHost, ofQuery, ofFragment, colon, List.append_assoc]
  rfl

theorem suffixChars_eq_nil_iff (url : Url) :
    suffixChars url = [] ↔ url.query = none ∧ url.fragment = none := by
  unfold suffixChars
  cases url.query <;> cases url.fragment <;> simp

theorem exists_first_of_suffixChars {url : Url} (some : suffixChars url ≠ []) :
    ∃ first rest, suffixChars url = first :: rest ∧ endsPath first = true := by
  cases isQuery : url.query with
  | some query =>
    unfold suffixChars
    rw [isQuery]
    exact ⟨'?', _, rfl, rfl⟩
  | none =>
    cases isFragment : url.fragment with
    | some fragment =>
      unfold suffixChars
      rw [isQuery, isFragment]
      exact ⟨'#', _, rfl, rfl⟩
    | none => exact absurd ((suffixChars_eq_nil_iff url).mpr ⟨isQuery, isFragment⟩) some

theorem Kept.visible_suffixChars [DomainNames] {url : Url} (kept : url.Kept) :
    ∀ char ∈ suffixChars url, isControl char = false := by
  intro char member
  rcases List.mem_append.mp member with inQuery | inFragment
  · cases isQuery : url.query with
    | none =>
      rw [isQuery] at inQuery
      cases inQuery
    | some query =>
      rw [isQuery] at inQuery
      rcases List.mem_cons.mp inQuery with rfl | inside
      · decide
      · exact kept.query query isQuery char inside
  · cases isFragment : url.fragment with
    | none =>
      rw [isFragment] at inFragment
      cases inFragment
    | some fragment =>
      rw [isFragment] at inFragment
      rcases List.mem_cons.mp inFragment with rfl | inside
      · decide
      · exact kept.fragment fragment isFragment char inside

/-- What stands behind a path goes on with whatever is put behind it. -/
theorem Kept.exists_tail [DomainNames] {url : Url} (kept : url.Kept) (some : suffixChars url ≠ [])
    {names : List String} (keptNames : ∀ name ∈ names, IsSegment url.scheme name) :
    ∃ tail, IsTail tail ∧ ∀ front : List Char,
      withoutLast (front ++ suffixChars url) ++ pathChars names = front ++ tail := by
  have visible := kept.visible_suffixChars
  obtain ⟨first, rest, isFirst, ends⟩ := exists_first_of_suffixChars some
  have notSlash : first ≠ '/' := by
    rintro rfl
    exact absurd ends (by decide)
  have last : [first].getLast? ≠ .some '/' := fun isSlash => notSlash (Option.some.inj isSlash)
  have stripped : withoutLast (suffixChars url) = first :: withoutLast rest := by
    rw [isFirst]
    exact withoutLast_append last rest
  refine ⟨first :: (withoutLast rest ++ pathChars names), ⟨⟨first, _, rfl, ends⟩, ?_⟩, ?_⟩
  · intro char member
    refine not_isGap_of_not_isControl ?_
    have inEither : char ∈ withoutLast (suffixChars url) ++ pathChars names := by
      rw [stripped]
      exact member
    rcases List.mem_append.mp inEither with inSuffix | inNames
    · exact visible char ((withoutLast_sublist _).mem inSuffix)
    · exact (not_endsPath_of_mem_pathChars keptNames inNames).1
  · intro front
    rw [withoutLast_append_of_ne_nil front (by rw [stripped]; exact List.cons_ne_nil _ _), stripped,
      List.append_assoc]
    rfl

/-- Names are more than slashes. -/
theorem AreNames.letters_pos {scheme : String} {names : List String}
    (areNames : AreNames scheme names) : 0 < letters (pathChars names) := by
  obtain ⟨first, rest, isFirst, named, -⟩ := areNames.first
  rw [letters_pathChars fun name member => (areNames.kept name member).not_slash, isFirst,
    weight_cons]
  have : first.length ≠ 0 := fun empty => named (String.length_eq_zero_iff.mp empty)
  omega

section

variable (scheme : String) (query fragment : Option String)

theorem front_hosted (authority : Authority) (segments : List String) :
    hostChars (some authority) ++
        (pathGuard ⟨scheme, some authority, .segments segments, query, fragment⟩).toList ++
        (Path.segments segments).text.toList =
      '/' :: '/' :: (authority.chars ++ pathChars segments) := by
  rw [segments_text_toList]
  show '/' :: '/' :: authority.chars ++ [] ++ pathChars segments = _
  rw [List.append_nil]
  rfl

theorem front_rooted (segments : List String) :
    hostChars none ++ (pathGuard ⟨scheme, none, .segments segments, query, fragment⟩).toList ++
        (Path.segments segments).text.toList =
      (pathGuard ⟨scheme, none, .segments segments, none, none⟩).toList ++ pathChars segments := by
  rw [segments_text_toList]
  rfl

theorem front_plain (text : String) :
    hostChars none ++ (pathGuard ⟨scheme, none, .plain text, query, fragment⟩).toList ++
      (Path.plain text).text.toList = text.toList := rfl

end

/-- With something behind its path, a URL only loses characters of it. -/
theorem Form.short [DomainNames] {scheme : String} {authority : Option Authority} {path : Path}
    (form : Form scheme authority path) {tail : List Char} (isTail : IsTail tail)
    (query fragment : Option String) :
    ∃ found, readAfterScheme scheme (hostChars authority ++
        (pathGuard ⟨scheme, authority, path, query, fragment⟩).toList ++ path.text.toList ++ tail) =
          .ok found ∧
      letters found.path.text.toList ≤ letters path.text.toList := by
  cases form with
  | hosted notFile kept path noDots =>
    rw [front_hosted, segments_text_toList, List.cons_append, List.cons_append, List.append_assoc]
    exact short_of_hosted isTail notFile kept path
  | rooted notSpecial path noDots =>
    rw [front_rooted, segments_text_toList]
    exact short_of_rooted isTail notSpecial path
  | plain notSpecial each noSlash =>
    rw [front_plain]
    exact short_of_plain isTail notSpecial each noSlash
  | file kept path named =>
    rw [front_hosted, segments_text_toList, List.cons_append, List.cons_append, List.append_assoc]
    exact short_of_file isTail kept path

/-- With nothing behind its path, only dots and drives are in the way. -/
theorem Form.below_iff [DomainNames] {scheme : String} {authority : Option Authority} {path : Path}
    (form : Form scheme authority path) {names : List String} (areNames : AreNames scheme names) :
    (∃ found, readAfterScheme scheme (withoutLast (hostChars authority ++
        (pathGuard ⟨scheme, authority, path, none, none⟩).toList ++ path.text.toList) ++
          pathChars names) = .ok found ∧
      IsBelow ⟨scheme, authority, path, none, none⟩ names found) ↔
    TakesNames ⟨scheme, authority, path, none, none⟩ := by
  cases form with
  | hosted notFile kept path noDots =>
    rw [front_hosted]
    exact iff_of_true (exists_below_host areNames notFile kept path noDots)
      ⟨rfl, rfl, fun file => absurd file notFile⟩
  | rooted notSpecial path noDots =>
    rw [front_rooted]
    exact iff_of_true (exists_below_root areNames notSpecial path noDots)
      ⟨rfl, rfl, fun file => absurd file (ne_file_of_not_special notSpecial)⟩
  | plain notSpecial each noSlash =>
    rw [front_plain]
    exact iff_of_true (exists_below_plain areNames notSpecial each noSlash)
      ⟨rfl, rfl, fun file => absurd file (ne_file_of_not_special notSpecial)⟩
  | @file host first rest kept path named =>
    have single : ∀ second others, first :: rest ≠ "" :: second :: others := by
      intro second others same
      obtain ⟨isEmpty, isRest⟩ := List.cons.inj same
      rw [named isEmpty] at isRest
      cases isRest
    rw [front_hosted]
    rcases kept with rfl | ⟨kept, notHere⟩
    · rw [chars_host]
      exact file_here_iff areNames path single
    · exact file_iff areNames kept notHere path single

/-- Names can be put behind a URL in exactly these cases. -/
theorem Kept.below_iff [DomainNames] {url : Url} (kept : url.Kept) {names : List String}
    (areNames : AreNames url.scheme names) :
    (∃ found, readAfterScheme url.scheme (withoutLast url.restChars ++ pathChars names) =
        .ok found ∧
      IsBelow url names found) ↔ url.TakesNames := by
  by_cases noSuffix : suffixChars url = []
  · have form := kept.form
    obtain ⟨noQuery, noFragment⟩ := (suffixChars_eq_nil_iff url).mp noSuffix
    obtain ⟨scheme, authority, path, query, fragment⟩ := url
    cases noQuery
    cases noFragment
    unfold restChars
    rw [noSuffix, List.append_nil]
    exact form.below_iff areNames
  · obtain ⟨tail, isTail, chars⟩ := kept.exists_tail noSuffix areNames.kept
    obtain ⟨found, read, short⟩ := kept.form.short isTail url.query url.fragment
    refine iff_of_false ?_ fun takes =>
      noSuffix ((suffixChars_eq_nil_iff url).mpr ⟨takes.1, takes.2.1⟩)
    rintro ⟨other, isRead, -, -, -, isPath⟩
    unfold restChars at isRead
    rw [chars] at isRead
    have same : found = other := Except.ok.inj (read.symm.trans isRead)
    have some : 0 < letters (pathChars names) := areNames.letters_pos
    rw [same, isPath, letters_append, letters_withoutLast] at short
    omega

end Url

end SecretRenewal
