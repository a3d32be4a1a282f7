/-
This file proves when more segments can be put behind the text of a URL that ends in its path. The
slashes at the end of the text are taken off first, the new segments come with slashes of their own,
and what this makes is read again. It is the same place one or more levels down for every URL but
those of files, and for a file exactly when no segment of its path is dots and no drive is on a
host. The slashes of an empty host may be taken off with those of the path, and then there is no
host at all, which is the same.
-/
import SecretRenewal.Proofs.Url.Rereading

namespace SecretRenewal

namespace Url

open Text

/-! ### Names below a URL -/

/-- The host of a URL, if it has one. -/
def host? (url : Url) : Option Host := (url.authority.map (·.host)).filter (· ≠ .name "")

/-- The port of a URL, unless it is the one of its scheme. -/
def port? (url : Url) : Option Nat := url.authority.bind (·.port)

/-- What is written in front of a path for the host above it. -/
def hostChars (authority : Option Authority) : List Char :=
  authority.elim [] fun authority => '/' :: '/' :: authority.chars

/-- What is written behind a path. -/
def suffixChars (url : Url) : List Char :=
  (url.query.elim [] fun query => '?' :: query.toList) ++
    url.fragment.elim [] fun fragment => '#' :: fragment.toList

/-- What is written behind a scheme and its colon. -/
def restChars (url : Url) : List Char :=
  hostChars url.authority ++ url.pathGuard.toList ++ url.path.text.toList ++ suffixChars url

/-- Segments that name something below a URL. -/
structure AreNames (scheme : String) (names : List String) : Prop where
  kept : ∀ name ∈ names, IsSegment scheme name
  noDots : ∀ name ∈ names, isDots name = false
  first : ∃ first rest, names = first :: rest ∧ first ≠ "" ∧ isDrive first = false

/-- A URL is the same place as another one, some names further down. -/
def IsBelow (url : Url) (names : List String) (found : Url) : Prop :=
  found.scheme = url.scheme ∧ found.host? = url.host? ∧ found.port? = url.port? ∧
    found.path.text.toList = withoutLast url.path.text.toList ++ pathChars names

/-- Whether names can be put behind a URL: nothing stands behind its path, and where it is a file,
no segment is dots and no drive is on a host. -/
def TakesNames (url : Url) : Prop :=
  url.query = none ∧ url.fragment = none ∧
    (url.scheme = "file" → ∀ segments, url.path = .segments segments →
      (∀ segment ∈ segments, isDots segment = false) ∧
        (url.host? ≠ none → ∀ first ∈ segments.head?, isDrive first = false))

theorem host?_congr {url other : Url} (same : url.authority = other.authority) :
    url.host? = other.host? := by
  unfold host?
  rw [same]

theorem port?_congr {url other : Url} (same : url.authority = other.authority) :
    url.port? = other.port? := by
  unfold port?
  rw [same]

theorem exists_ok_iff {url : Url} {holds : Url → Prop} :
    (∃ found, (Except.ok url : Except Fault Url) = .ok found ∧ holds found) ↔ holds url := by
  constructor
  · rintro ⟨found, same, isFound⟩
    cases same
    exact isFound
  · exact fun isFound => ⟨url, rfl, isFound⟩

section

variable {scheme : String} {names : List String}

theorem takesNames_file_iff {authority : Option Authority} {segments : List String} :
    TakesNames ⟨"file", authority, .segments segments, none, none⟩ ↔
      (∀ segment ∈ segments, isDots segment = false) ∧
        (host? ⟨"file", authority, .segments segments, none, none⟩ ≠ none →
          ∀ first ∈ segments.head?, isDrive first = false) := by
  constructor
  · rintro ⟨-, -, each⟩
    exact each rfl segments rfl
  · rintro holds
    refine ⟨rfl, rfl, fun _ others isPath => ?_⟩
    cases isPath
    exact holds

theorem AreNames.ne_nil (areNames : AreNames scheme names) : names ≠ [] := by
  obtain ⟨first, rest, isFirst, -⟩ := areNames.first
  rw [isFirst]
  exact List.cons_ne_nil _ _

theorem AreNames.append_ne_nil (areNames : AreNames scheme names) (front : List String) :
    front ++ names ≠ [] := fun none => areNames.ne_nil (List.append_eq_nil_iff.mp none).2

variable {segments front : List String}

namespace Stripped

theorem mem (stripped : Stripped segments front) {segment : String} (member : segment ∈ front) :
    segment ∈ segments := by
  obtain ⟨count, isFront⟩ := stripped.split
  exact isFront ▸ List.mem_append_left _ member

/-- The path below is made of segments as they are kept. -/
theorem kept (stripped : Stripped segments front) (areNames : AreNames scheme names)
    (path : ∀ segment ∈ segments, IsSegment scheme segment) :
    ∀ segment ∈ front ++ names, IsSegment scheme segment :=
  List.forall_mem_append.mpr ⟨fun segment member => path segment (stripped.mem member),
    areNames.kept⟩

/-- The segments that are left out at the end of a path are no dots. -/
theorem noDots_iff (stripped : Stripped segments front) (areNames : AreNames scheme names) :
    (∀ segment ∈ segments, isDots segment = false) ↔
      ∀ segment ∈ front ++ names, isDots segment = false := by
  obtain ⟨count, isFront⟩ := stripped.split
  rw [isFront, List.forall_mem_append, List.forall_mem_append]
  constructor
  · exact fun holds => ⟨holds.1, areNames.noDots⟩
  · refine fun holds => ⟨holds.1, fun segment member => ?_⟩
    rw [List.eq_of_mem_replicate member]
    exact isDots_empty

theorem text_below (stripped : Stripped segments front) (names : List String) :
    withoutLast (Path.segments segments).text.toList ++ pathChars names =
      pathChars (front ++ names) := by
  rw [segments_text_toList, stripped.chars, pathChars_append]

/-- What is found is below the URL exactly when the path was read as it stands. -/
theorem isBelow_iff (stripped : Stripped segments front) {authority : Option Authority}
    {found : Url} (isScheme : found.scheme = scheme)
    (isHost : found.host? = host? ⟨scheme, authority, .segments segments, none, none⟩)
    (isPort : found.port? = port? ⟨scheme, authority, .segments segments, none, none⟩) :
    IsBelow ⟨scheme, authority, .segments segments, none, none⟩ names found ↔
      found.path.text.toList = pathChars (front ++ names) := by
  rw [← stripped.text_below]
  exact ⟨fun below => below.2.2.2, fun isPath => ⟨isScheme, isHost, isPort, isPath⟩⟩

theorem isBelow_readPath (stripped : Stripped segments front) (areNames : AreNames scheme names)
    (notFile : scheme ≠ "file") (path : ∀ segment ∈ segments, IsSegment scheme segment)
    (noDots : ∀ segment ∈ segments, isDots segment = false) {authority : Option Authority}
    {found : Url} (isScheme : found.scheme = scheme)
    (isHost : found.host? = host? ⟨scheme, authority, .segments segments, none, none⟩)
    (isPort : found.port? = port? ⟨scheme, authority, .segments segments, none, none⟩)
    (isPath : found.path = readPath scheme (pathChars (front ++ names))) :
    IsBelow ⟨scheme, authority, .segments segments, none, none⟩ names found := by
  rw [stripped.isBelow_iff isScheme isHost isPort, isPath]
  exact text_readPath notFile (stripped.kept areNames path)
    ((stripped.noDots_iff areNames).mp noDots) (areNames.append_ne_nil front)

end Stripped

/-- A path with a single slash in front is read as one without a host. -/
theorem readAfterScheme_pathChars [DomainNames] (notSpecial : isSpecial scheme = false)
    {first : String} {rest : List String}
    (kept : ∀ segment ∈ first :: rest, IsSegment scheme segment) {tail : List Char}
    (single : first ≠ "" ∨ rest = [] ∧ tail.head? ≠ some '/')
    (noGap : ∀ char ∈ tail, isGap char = false) :
    readAfterScheme scheme (pathChars (first :: rest) ++ tail) = .ok (withSuffix
      ⟨scheme, none, readPath scheme (pathChars (first :: rest) ++ tail), none, none⟩
      (pathChars (first :: rest) ++ tail)) := by
  rw [pathChars_cons, List.cons_append]
  refine readAfterScheme_rooted notSpecial ?_ ?_
  · cases isFirst : first.toList with
    | nil =>
      obtain ⟨noRest, noSlash⟩ := single.resolve_left fun named =>
        named (String.toList_eq_nil_iff.mp isFirst)
      rw [noRest]
      exact noSlash
    | cons char more =>
      exact fun isSlash => (kept first List.mem_cons_self).not_slash char
        (isFirst ▸ List.mem_cons_self) (Option.some.inj isSlash)
  · intro char member
    rcases List.mem_append.mp member with inPath | inTail
    · exact not_isGap_of_not_isControl
        (not_endsPath_of_mem_pathChars kept (List.mem_cons_of_mem _ inPath)).1
    · exact noGap char inTail

/-- Names that nothing follows are read there as well. -/
theorem readAfterScheme_names [DomainNames] (notSpecial : isSpecial scheme = false) {first : String}
    {rest : List String} (kept : ∀ segment ∈ first :: rest, IsSegment scheme segment)
    (named : first ≠ "") : readAfterScheme scheme (pathChars (first :: rest)) = .ok (withSuffix
      ⟨scheme, none, readPath scheme (pathChars (first :: rest)), none, none⟩
      (pathChars (first :: rest))) := by
  have read := readAfterScheme_pathChars notSpecial kept (.inl named) (List.forall_mem_nil _)
  rwa [List.append_nil] at read

theorem AreNames.readAfterScheme_eq [DomainNames] (areNames : AreNames scheme names)
    (notSpecial : isSpecial scheme = false) : readAfterScheme scheme (pathChars names) =
      .ok (withSuffix ⟨scheme, none, readPath scheme (pathChars names), none, none⟩
        (pathChars names)) := by
  obtain ⟨first, rest, isFirst, named, -⟩ := areNames.first
  have read := readAfterScheme_names notSpecial (isFirst ▸ areNames.kept) named
  rwa [← isFirst] at read

/-! ### Below a host -/

/-- The slashes in front of a host stay, unless there is neither a host nor a path. -/
theorem withoutLast_hostChars {authority : Authority}
    (noSlash : ∀ char ∈ authority.chars, char ≠ '/') (stripped : Stripped segments front)
    (some : ¬(authority.chars = [] ∧ front = [])) :
    withoutLast ('/' :: '/' :: (authority.chars ++ pathChars segments)) =
      '/' :: '/' :: (authority.chars ++ pathChars front) := by
  by_cases empty : front = []
  · have isHost : authority.chars ≠ [] := fun none => some ⟨none, empty⟩
    have last : ('/' :: '/' :: authority.chars).getLast? ≠ .some '/' := by
      rw [List.getLast?_cons_of_ne_nil (List.cons_ne_nil _ _),
        List.getLast?_cons_of_ne_nil isHost]
      exact fun isSlash => noSlash _ (List.mem_of_getLast? isSlash) rfl
    have chars := withoutLast_append last (pathChars segments)
    rw [stripped.chars] at chars
    exact chars
  · have notNil : withoutLast (pathChars segments) ≠ [] := by
      obtain ⟨first, rest, isFirst⟩ := List.exists_cons_of_ne_nil empty
      rw [stripped.chars, isFirst, pathChars_cons]
      exact List.cons_ne_nil _ _
    have chars := withoutLast_append_of_ne_nil ('/' :: '/' :: authority.chars) notNil
    rw [stripped.chars] at chars
    exact chars

/-- Without a host and a path there are only slashes, and all of them are taken off. -/
theorem Stripped.withoutLast_slashes (stripped : Stripped segments []) :
    withoutLast ('/' :: '/' :: pathChars segments) = [] :=
  withoutLast_append_of_nil ['/', '/'] stripped.chars

theorem exists_below_nobody [DomainNames] (areNames : AreNames scheme names)
    (notFile : scheme ≠ "file") {authority : Authority} (kept : authority.Kept scheme)
    (nobody : authority.chars = []) (stripped : Stripped segments [])
    (path : ∀ segment ∈ segments, IsSegment scheme segment)
    (noDots : ∀ segment ∈ segments, isDots segment = false) :
    ∃ found, readAfterScheme scheme
      (withoutLast ('/' :: '/' :: (authority.chars ++ pathChars segments)) ++ pathChars names) =
        .ok found ∧
      IsBelow ⟨scheme, some authority, .segments segments, none, none⟩ names found := by
  obtain ⟨noHost, noPort⟩ := kept.nobody_of_chars nobody
  have notSpecial : isSpecial scheme = false := Bool.eq_false_iff.mpr fun special =>
    kept.chars_ne_nil special nobody
  rw [nobody, List.nil_append, stripped.withoutLast_slashes, List.nil_append,
    areNames.readAfterScheme_eq notSpecial]
  refine ⟨_, rfl, stripped.isBelow_readPath areNames notFile path noDots rfl ?_ noPort.symm rfl⟩
  unfold host?
  rw [Option.map_some, noHost]
  rfl

theorem exists_below_host [DomainNames] (areNames : AreNames scheme names)
    (notFile : scheme ≠ "file") {authority : Authority} (kept : authority.Kept scheme)
    (path : ∀ segment ∈ segments, IsSegment scheme segment)
    (noDots : ∀ segment ∈ segments, isDots segment = false) :
    ∃ found, readAfterScheme scheme
      (withoutLast ('/' :: '/' :: (authority.chars ++ pathChars segments)) ++ pathChars names) =
        .ok found ∧
      IsBelow ⟨scheme, some authority, .segments segments, none, none⟩ names found := by
  obtain ⟨front, stripped⟩ := exists_stripped fun segment member => (path segment member).not_slash
  by_cases bare : authority.chars = [] ∧ front = []
  · obtain ⟨nobody, rfl⟩ := bare
    exact exists_below_nobody areNames notFile kept nobody stripped path noDots
  have keptAll := stripped.kept areNames path
  have ends : ∀ char ∈ (pathChars (front ++ names)).head?,
      endsAuthority (isSpecial scheme) char = true := by
    obtain ⟨first, rest, isFirst⟩ := List.exists_cons_of_ne_nil (areNames.append_ne_nil front)
    rw [isFirst, pathChars_cons]
    rintro _ ⟨⟩
    rfl
  have noGap : ∀ char ∈ pathChars (front ++ names), isGap char = false := fun char member =>
    not_isGap_of_not_isControl (not_endsPath_of_mem_pathChars keptAll member).1
  have noSlash : ∀ char ∈ authority.chars, char ≠ '/' := fun char member =>
    ne_of_outside (kept.mem_chars member).2 rfl
  rw [withoutLast_hostChars noSlash stripped bare, List.cons_append, List.cons_append,
    List.append_assoc, ← pathChars_append, readAfterScheme_hosted notFile kept ends noGap]
  exact ⟨_, rfl, stripped.isBelow_readPath areNames notFile path noDots rfl
    (host?_congr rfl) (port?_congr rfl) rfl⟩

/-! ### Below a root -/

/-- What stands in front of a path without a host keeps its first segment from being taken for
one. -/
theorem pathGuard_rooted (scheme : String) (segments : List String)
    (query fragment : Option String) :
    pathGuard ⟨scheme, none, .segments segments, query, fragment⟩ = "/." ∨
      pathGuard ⟨scheme, none, .segments segments, query, fragment⟩ = "" ∧
        ∀ second rest, segments ≠ "" :: second :: rest := by
  unfold pathGuard
  split
  · exact .inl rfl
  · rename_i noGuard
    exact .inr ⟨rfl, fun second rest same => noGuard second rest rfl (congrArg Path.segments same)⟩

/-- The first segment below a path is empty only where it has to be guarded. -/
theorem Stripped.ne_empty (stripped : Stripped segments front) (areNames : AreNames scheme names)
    (single : ∀ second rest, segments ≠ "" :: second :: rest) {first : String}
    {rest : List String} (isFirst : front ++ names = first :: rest) : first ≠ "" := by
  cases isFront : front with
  | nil =>
    obtain ⟨name, others, isName, named, -⟩ := areNames.first
    rw [isFront, List.nil_append, isName] at isFirst
    exact (List.cons.inj isFirst).1 ▸ named
  | cons head others =>
    rintro rfl
    obtain ⟨count, split⟩ := stripped.split
    rw [isFront, List.cons_append] at isFirst split
    rw [(List.cons.inj isFirst).1] at isFront split
    cases others with
    | nil => exact stripped.last (isFront ▸ rfl)
    | cons second others => exact single second _ split

theorem exists_below_root [DomainNames] (areNames : AreNames scheme names)
    (notSpecial : isSpecial scheme = false) (path : ∀ segment ∈ segments, IsSegment scheme segment)
    (noDots : ∀ segment ∈ segments, isDots segment = false) :
    ∃ found, readAfterScheme scheme (withoutLast
      ((pathGuard ⟨scheme, none, .segments segments, none, none⟩).toList ++ pathChars segments) ++
        pathChars names) = .ok found ∧
      IsBelow ⟨scheme, none, .segments segments, none, none⟩ names found := by
  obtain ⟨front, stripped⟩ := exists_stripped fun segment member => (path segment member).not_slash
  have keptAll := stripped.kept areNames path
  have notFile := ne_file_of_not_special notSpecial
  rcases pathGuard_rooted scheme segments none none with dot | ⟨noGuard, single⟩
  · have chars : withoutLast (['/', '.'] ++ pathChars segments) ++ pathChars names =
        pathChars ("." :: (front ++ names)) := by
      rw [withoutLast_append (by decide), stripped.chars, List.append_assoc, ← pathChars_append]
      rfl
    have read := readAfterScheme_names notSpecial
      (List.forall_mem_cons.mpr ⟨isSegment_dot scheme, keptAll⟩) (by decide +kernel)
    have isPath := readPath_dot keptAll (areNames.append_ne_nil front) [] nofun
    rw [List.append_nil, List.append_nil] at isPath
    have isGuard : "/.".toList = ['/', '.'] := by decide +kernel
    rw [dot, isGuard, chars, read]
    exact ⟨_, rfl, stripped.isBelow_readPath areNames notFile path noDots rfl
      (host?_congr rfl) (port?_congr rfl) isPath⟩
  · have chars : withoutLast (pathChars segments) ++ pathChars names =
        pathChars (front ++ names) := by
      rw [stripped.chars, ← pathChars_append]
    obtain ⟨first, rest, isFirst⟩ := List.exists_cons_of_ne_nil (areNames.append_ne_nil front)
    have named := stripped.ne_empty areNames single isFirst
    have read := readAfterScheme_names notSpecial (isFirst ▸ keptAll) named
    rw [← isFirst] at read
    rw [noGuard, String.toList_empty, List.nil_append, chars, read]
    exact ⟨_, rfl, stripped.isBelow_readPath areNames notFile path noDots rfl
      (host?_congr rfl) (port?_congr rfl) rfl⟩

/-! ### Below a plain text -/

theorem exists_below_plain [DomainNames] (areNames : AreNames scheme names)
    (notSpecial : isSpecial scheme = false) {text : String}
    (each : ∀ char ∈ text.toList, isControl char = false ∧ endsPath char = false)
    (noSlash : text.toList.head? ≠ some '/') :
    ∃ found, readAfterScheme scheme (withoutLast text.toList ++ pathChars names) = .ok found ∧
      IsBelow ⟨scheme, none, .plain text, none, none⟩ names found := by
  have namesRead := text_readPath (ne_file_of_not_special notSpecial) areNames.kept
    areNames.noDots areNames.ne_nil
  cases isText : text.toList with
  | nil =>
    refine ⟨_, areNames.readAfterScheme_eq notSpecial, rfl, host?_congr rfl, port?_congr rfl, ?_⟩
    show (readPath scheme (pathChars names)).text.toList = withoutLast text.toList ++ _
    rw [namesRead, isText]
    rfl
  | cons first rest =>
    have noSlashFirst : first ≠ '/' := fun isSlash => noSlash (isText ▸ congrArg some isSlash)
    have chars : withoutLast (first :: rest) ++ pathChars names =
        first :: (withoutLast rest ++ pathChars names) := by
      have last : [first].getLast? ≠ some '/' := fun isSlash =>
        noSlashFirst (Option.some.inj isSlash)
      exact congrArg (· ++ pathChars names) (withoutLast_append last rest)
    have goesOn : ∀ char ∈ withoutLast text.toList ++ pathChars names,
        isControl char = false ∧ endsPath char = false := by
      intro char member
      rcases List.mem_append.mp member with inText | inNames
      · exact each char ((withoutLast_sublist _).mem inText)
      · exact not_endsPath_of_mem_pathChars areNames.kept inNames
    have noRoot : (withoutLast text.toList ++ pathChars names).head? ≠ some '/' := by
      rw [isText, chars]
      exact fun isSlash => noSlashFirst (Option.some.inj isSlash)
    have read := readAfterScheme_plain notSpecial noRoot fun char member =>
      not_isGap_of_not_isControl (goesOn char member).1
    have all : (withoutLast text.toList ++ pathChars names).takeWhile (fun char => !endsPath char) =
        withoutLast text.toList ++ pathChars names :=
      List.takeWhile_eq_self_iff.mpr fun char member => by rw [(goesOn char member).2]; rfl
    rw [← isText]
    refine ⟨_, read, rfl, host?_congr rfl, port?_congr rfl, ?_⟩
    show (escape isControl _).toList = withoutLast text.toList ++ pathChars names
    rw [all, escape_of_none fun char member => (goesOn char member).1, String.toList_ofList]

/-! ### Below a file -/

theorem withoutLeadingEmpty_of_ne {first : String} {rest : List String} (named : first ≠ "") :
    withoutLeadingEmpty (first :: rest) = first :: rest := by
  unfold withoutLeadingEmpty
  rw [List.dropWhile_cons_of_neg (by rw [beq_iff_eq]; exact named)]

/-- Below a file that begins with no drive, only dots can be in the way. -/
theorem Stripped.isBelow_fileAt_iff (stripped : Stripped segments front)
    (areNames : AreNames "file" names) (path : ∀ segment ∈ segments, IsSegment "file" segment)
    {first : String} {rest : List String} (isFirst : front ++ names = first :: rest)
    (named : first ≠ "") {head : String} {tail : List String}
    (isRead : head :: tail = first :: rest ∨ head :: tail = "" :: first :: rest)
    (noDrive : isDrive head = false) (owner : Authority) :
    IsBelow ⟨"file", some owner, .segments segments, none, none⟩ names
        (fileAt owner (head.toList ++ pathChars tail)) ↔
      ∀ segment ∈ segments, isDots segment = false := by
  have keptAll := stripped.kept areNames path
  have below := stripped.text_below names
  rw [isFirst] at keptAll below
  have keptRead : ∀ segment ∈ head :: tail, IsSegment "file" segment := by
    rcases isRead with same | same
    · exact same ▸ keptAll
    · exact same ▸ List.forall_mem_cons.mpr ⟨isSegment_empty _, keptAll⟩
  have noDots_iff : (∀ segment ∈ head :: tail, isDots segment = false) ↔
      ∀ segment ∈ first :: rest, isDots segment = false := by
    rcases isRead with same | same
    · rw [same]
    · rw [same, List.forall_mem_cons]
      exact and_iff_right isDots_empty
  have sameWeight : weight (head :: tail) = weight (first :: rest) := by
    rcases isRead with same | same
    · rw [same]
    · rw [same, weight_cons]
      exact Nat.zero_add _
  have samePath : withoutLeadingEmpty (head :: tail) = first :: rest := by
    rcases isRead with same | same
    · rw [same, withoutLeadingEmpty_of_ne named]
    · rw [same]
      exact withoutLeadingEmpty_of_ne named
  rw [stripped.noDots_iff areNames, isFirst, ← noDots_iff]
  constructor
  · rintro ⟨-, -, -, isPath⟩
    exact noDots_of_fileAt keptRead keptAll sameWeight (isPath.trans below)
  · intro noDots
    obtain ⟨isAuthority, isPath⟩ := fileAt_of_names keptRead noDots noDrive owner
    refine ⟨rfl, host?_congr isAuthority, port?_congr isAuthority, ?_⟩
    rw [isPath, segments_text_toList, samePath]
    exact below.symm

/-- Names alone are the path of a file. -/
theorem AreNames.readAfterScheme_file [DomainNames] (areNames : AreNames "file" names)
    {first : String} {rest : List String} (isFirst : names = first :: rest) (named : first ≠ "") :
    readAfterScheme "file" (pathChars names) =
      .ok (fileAt { host := .name "" } (first.toList ++ pathChars rest)) := by
  obtain ⟨char, more, isChars⟩ := List.exists_cons_of_ne_nil
    fun none => named (String.toList_eq_nil_iff.mp none)
  have plain := areNames.kept first (isFirst ▸ List.mem_cons_self) char
    (isChars ▸ List.mem_cons_self)
  have read := readFile_slash plain.2 (not_isGap_of_not_isControl (not_isControl_of_path plain.1))
    (more ++ pathChars rest)
  rw [← List.cons_append, ← isChars] at read
  rw [isFirst, Url.readAfterScheme_file]
  exact read

theorem file_here_iff [DomainNames] (areNames : AreNames "file" names)
    (path : ∀ segment ∈ segments, IsSegment "file" segment)
    (single : ∀ second rest, segments ≠ "" :: second :: rest) :
    (∃ found, readAfterScheme "file"
      (withoutLast ('/' :: '/' :: pathChars segments) ++ pathChars names) = .ok found ∧
      IsBelow ⟨"file", some { host := .name "" }, .segments segments, none, none⟩ names found) ↔
    TakesNames ⟨"file", some { host := .name "" }, .segments segments, none, none⟩ := by
  obtain ⟨front, stripped⟩ := exists_stripped fun segment member => (path segment member).not_slash
  have onlyDots : TakesNames ⟨"file", some { host := .name "" }, .segments segments, none, none⟩ ↔
      ∀ segment ∈ segments, isDots segment = false := by
    rw [takesNames_file_iff]
    exact and_iff_left fun noHost => absurd rfl noHost
  rw [onlyDots]
  cases front with
  | nil =>
    obtain ⟨first, rest, isFirst, named, noDrive⟩ := areNames.first
    rw [stripped.withoutLast_slashes, List.nil_append, areNames.readAfterScheme_file isFirst named,
      exists_ok_iff]
    exact stripped.isBelow_fileAt_iff areNames path isFirst named (.inl rfl) noDrive _
  | cons first rest =>
    have named := stripped.ne_empty areNames single rfl
    have notNil : withoutLast (pathChars segments) ≠ [] := by
      rw [stripped.chars]
      exact List.cons_ne_nil _ _
    have chars : withoutLast ('/' :: '/' :: pathChars segments) ++ pathChars names =
        '/' :: '/' :: pathChars (first :: (rest ++ names)) := by
      rw [← List.cons_append, pathChars_append, ← stripped.chars]
      exact congrArg (· ++ pathChars names) (withoutLast_append_of_ne_nil ['/', '/'] notNil)
    have isRead : readAfterScheme "file" ('/' :: '/' :: pathChars (first :: (rest ++ names))) =
        .ok (fileAt { host := .name "" } ("".toList ++ pathChars (first :: (rest ++ names)))) :=
      (Url.readAfterScheme_file _).trans (readFile_slashes _)
    rw [chars, isRead, exists_ok_iff]
    exact stripped.isBelow_fileAt_iff areNames path rfl named (.inr rfl) (by decide +kernel) _

/-- A path begins with a drive when the one below it does. -/
theorem Stripped.noDrive_iff (stripped : Stripped segments front)
    (areNames : AreNames scheme names) {first : String} {rest : List String}
    (isFirst : front ++ names = first :: rest) :
    (∀ head ∈ segments.head?, isDrive head = false) ↔ isDrive first = false := by
  obtain ⟨count, split⟩ := stripped.split
  cases front with
  | nil =>
    obtain ⟨name, others, isName, -, noDrive⟩ := areNames.first
    rw [List.nil_append, isName] at isFirst
    refine iff_of_true (fun head isHead => ?_) ((List.cons.inj isFirst).1 ▸ noDrive)
    rw [split] at isHead
    have empty := List.eq_of_mem_replicate (List.mem_of_mem_head? isHead)
    rw [empty]
    decide +kernel
  | cons head others =>
    rw [split, ← (List.cons.inj isFirst).1]
    constructor
    · exact fun noDrive => noDrive head rfl
    · rintro noDrive _ ⟨⟩
      exact noDrive

theorem chars_host (host : Host) : Authority.chars { host } = host.text.toList := by
  unfold Authority.chars
  rw [Authority.userText_toList, Authority.hostText_toList, if_pos ⟨rfl, rfl⟩]
  exact List.append_nil _

theorem file_iff [DomainNames] (areNames : AreNames "file" names) {host : Host}
    (kept : host.Kept true) (notHere : host ≠ .name "localhost")
    (path : ∀ segment ∈ segments, IsSegment "file" segment)
    (single : ∀ second rest, segments ≠ "" :: second :: rest) :
    (∃ found, readAfterScheme "file" (withoutLast
      ('/' :: '/' :: (Authority.chars { host } ++ pathChars segments)) ++ pathChars names) =
        .ok found ∧
      IsBelow ⟨"file", some { host }, .segments segments, none, none⟩ names found) ↔
    TakesNames ⟨"file", some { host }, .segments segments, none, none⟩ := by
  obtain ⟨front, stripped⟩ := exists_stripped fun segment member => (path segment member).not_slash
  obtain ⟨first, rest, isFirst⟩ := List.exists_cons_of_ne_nil (areNames.append_ne_nil front)
  have keptAll := stripped.kept areNames path
  have noSlash : ∀ char ∈ Authority.chars { host }, char ≠ '/' := fun char member =>
    ne_of_outside (kept.mem_text (chars_host host ▸ member)).2.2 rfl
  have someHost : ¬(Authority.chars { host } = [] ∧ front = []) := fun none =>
    kept.text_ne_nil (chars_host host ▸ none.1)
  have isHost : host? ⟨"file", some { host }, .segments segments, none, none⟩ = some host := by
    have named : host ≠ .name "" := fun nobody => kept.text_ne_nil (nobody ▸ rfl)
    exact Option.filter_eq_some_iff.mpr ⟨rfl, decide_eq_true named⟩
  have isRead : readAfterScheme "file"
      ('/' :: '/' :: (host.text.toList ++ pathChars (first :: rest))) =
        .ok (fileAt { host } (first.toList ++ pathChars rest)) :=
    (readAfterScheme_file _).trans (readFile_hosted kept notHere _)
  rw [withoutLast_hostChars noSlash stripped someHost, List.cons_append, List.cons_append,
    List.append_assoc, ← pathChars_append, isFirst, chars_host, isRead, exists_ok_iff,
    takesNames_file_iff, stripped.noDrive_iff areNames isFirst]
  rw [isFirst] at keptAll
  cases drive : isDrive first with
  | false =>
    have named := stripped.ne_empty areNames single isFirst
    rw [stripped.isBelow_fileAt_iff areNames path isFirst named (.inl rfl) drive]
    exact (and_iff_left fun _ => rfl).symm
  | true =>
    refine iff_of_false (fun below => ?_) fun holds => ?_
    · obtain ⟨-, sameHost, -, isPath⟩ := below
      have noDots := noDots_of_fileAt keptAll keptAll rfl
        (isPath.trans ((stripped.text_below names).trans (congrArg pathChars isFirst)))
      have isAuthority := fileAt_of_isDrive keptAll (noDots first List.mem_cons_self) drive { host }
      rw [isHost] at sameHost
      unfold host? at sameHost
      rw [isAuthority] at sameHost
      cases sameHost
    · exact absurd (holds.2 (by rw [isHost]; exact nofun)) nofun

end

end Url

end SecretRenewal