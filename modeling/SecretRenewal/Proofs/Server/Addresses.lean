/-
This file proves what the addresses of requests address. Settings keep the address of the server as
a URL, and the address of a request is put together as text and read again when it is sent. This
gives the path on the same server exactly when names can be put behind the URL of the server; with
a query or a fragment in that URL the path of a request belongs to those, and all requests go to
the one path that the URL has.
-/
import SecretRenewal.Proofs.Url.Suffixes
import SecretRenewal.Server.Settings

namespace SecretRenewal

open Url

/-! ### Paths that are asked for -/

/-- Letters, digits, and the two signs that may join them. -/
def isWordChar (char : Char) : Bool := char.isAlphanum || char == '-' || char == '_'

/-- Whether a text is a word: one or more of these characters. -/
def isWord (text : String) : Bool := text != "" && text.toList.all isWordChar

/-- A path of one or more words, with any number of slashes in front. -/
def IsWordPath (path : String) : Prop := ∃ slashes first rest,
  path.toList = List.replicate slashes '/' ++ ("/".intercalate (first :: rest)).toList ∧
    ∀ segment ∈ first :: rest, isWord segment = true

theorem plain_of_isWordChar {char : Char} (isWord : isWordChar char = true) :
    (escapedInPath char = false ∧ ∀ special, isSlash special char = false) ∧
      char.toLower ≠ '.' ∧ char.toLower ≠ '%' := by
  have ascii : char.toNat < 128 := by
    simp only [isWordChar, Bool.or_eq_true, beq_iff_eq] at isWord
    rcases isWord with (alphanumeric | rfl) | rfl
    · have := isAlphanum_iff.mp alphanumeric
      omega
    · decide
    · decide
  refine of_ascii (motive := fun char => isWordChar char = true →
    (escapedInPath char = false ∧ ∀ special, isSlash special char = false) ∧
      char.toLower ≠ '.' ∧ char.toLower ≠ '%') ascii ?_ isWord
  decide +kernel

section

variable {word : String}

theorem ne_empty_of_isWord (isWord : isWord word = true) : word ≠ "" :=
  bne_iff_ne.mp (Bool.and_eq_true_iff.mp isWord).1

theorem isWordChar_of_isWord (isWord : isWord word = true) :
    ∀ char ∈ word.toList, isWordChar char = true :=
  List.all_eq_true.mp (Bool.and_eq_true_iff.mp isWord).2

theorem isSegment_of_isWord (scheme : String) (isWord : isWord word = true) :
    IsSegment scheme word := fun char member =>
  have plain := (plain_of_isWordChar (isWordChar_of_isWord isWord char member)).1
  ⟨plain.1, plain.2 _⟩

theorem not_isDots_of_isWord (isWord : isWord word = true) : isDots word = false := by
  obtain ⟨first, rest, isFirst⟩ := List.exists_cons_of_ne_nil
    fun none => ne_empty_of_isWord isWord (String.toList_eq_nil_iff.mp none)
  obtain ⟨-, noDot, noMark⟩ := plain_of_isWordChar
    (isWordChar_of_isWord isWord first (isFirst ▸ List.mem_cons_self))
  have lower : word.toLower.toList.head? = some first.toLower := by
    unfold String.toLower
    rw [String.toList_map, isFirst]
    rfl
  have ne {dots : List String} (begin : (dots.all fun segment =>
      segment.toList.head? == some '.' || segment.toList.head? == some '%') = true) :
      dots.contains word.toLower = false := by
    refine Bool.eq_false_iff.mpr fun listed => ?_
    have isDots := List.all_eq_true.mp begin word.toLower (List.contains_iff_mem.mp listed)
    rw [lower, Bool.or_eq_true, beq_iff_eq, beq_iff_eq] at isDots
    rcases isDots with isDot | isMark
    · exact noDot (Option.some.inj isDot)
    · exact noMark (Option.some.inj isMark)
  exact Bool.or_eq_false_iff.mpr ⟨ne (by decide +kernel), ne (by decide +kernel)⟩

end

/-- The words of a path, below the version of what answers. -/
theorem areNames_of_words {first : String} {rest : List String}
    (words : ∀ segment ∈ first :: rest, isWord segment = true) (scheme : String) :
    AreNames scheme ("v1" :: first :: rest) where
  kept := List.forall_mem_cons.mpr ⟨isSegment_of_isWord scheme (by decide +kernel),
    fun word member => isSegment_of_isWord scheme (words word member)⟩
  noDots := List.forall_mem_cons.mpr ⟨not_isDots_of_isWord (by decide +kernel),
    fun word member => not_isDots_of_isWord (words word member)⟩
  first := ⟨"v1", first :: rest, rfl, by decide +kernel, by decide +kernel⟩

/-- A text that ends in names ends in a visible character. -/
theorem visible_getLast? {scheme : String} {names : List String} (areNames : AreNames scheme names)
    (front : List Char) : ∀ char ∈ (':' :: (front ++ pathChars names)).getLast?, ' ' < char := by
  intro char isLast
  have inNames : char ∈ pathChars names := by
    obtain ⟨first, rest, isFirst, -⟩ := areNames.first
    rw [← List.cons_append, List.getLast?_append] at isLast
    cases last : (pathChars names).getLast? with
    | none =>
      rw [isFirst] at last
      exact absurd (List.getLast?_eq_none_iff.mp last) (List.cons_ne_nil _ _)
    | some other =>
      rw [last] at isLast
      cases isLast
      exact List.mem_of_getLast? last
  obtain ⟨piece, isPiece, inside⟩ := List.mem_flatMap.mp inNames
  obtain ⟨name, isName, rfl⟩ := List.mem_map.mp isPiece
  rcases List.mem_cons.mp inside with rfl | inside
  · decide
  · have plain := (areNames.kept name isName char inside).1
    have visible := isControl_eq_false_iff.mp (not_isControl_of_path plain)
    have notBlank : char.toNat ≠ 32 := fun isBlank =>
      have isSpace : char = ' ' := Char.toNat_inj.mp isBlank
      ne_of_outside plain rfl isSpace
    rw [Char.lt_def, UInt32.lt_iff_toNat_lt]
    show 32 < char.toNat
    omega

/-! ### Addresses of requests -/

namespace ServerSettings

/-- The settings that are made for an address, or are taken from the environment. -/
inductive Accepted [DomainNames] : ServerSettings → Prop
  | forAddress {address : String} {settings : ServerSettings}
      (made : forAddress address = .ok settings) : Accepted settings
  | fromEnvironment {environment : Environment} {settings : ServerSettings}
      (made : fromEnvironment environment = .ok settings) : Accepted settings

/-- Whether the address of a request for a path, read again, is this path on the server. -/
def Addresses [DomainNames] (settings : ServerSettings) (path : String) : Prop :=
  ∃ url, Url.parse (settings.apiUrl path) = .ok url ∧
    url.scheme = settings.address.scheme ∧ url.host? = settings.address.host? ∧
    url.port? = settings.address.port? ∧
    url.path.text =
      withoutLastSlashes settings.address.path.text ++ "/v1/" ++ withoutFirstSlashes path

theorem Accepted.kept [DomainNames] {settings : ServerSettings} (accepted : settings.Accepted) :
    settings.address.Kept := by
  have ofField {field address : String} {settings : ServerSettings}
      (made : forField field address = .ok settings) : settings.address.Kept := by
    unfold forField at made
    split at made
    · rename_i parsed
      cases made
      exact kept_of_parse parsed
    · cases made
  cases accepted with
  | forAddress made => exact ofField made
  | fromEnvironment made =>
    obtain ⟨settings, isSettings, made⟩ := value_of_bind made
    have kept := ofField isSettings
    cases made
    exact kept

/-- Without the slashes in front, a path is the words with a slash between them. -/
theorem withoutFirstSlashes_eq {path : String} {slashes : Nat} {first : String}
    {rest : List String}
    (isPath : path.toList =
      List.replicate slashes '/' ++ ("/".intercalate (first :: rest)).toList)
    (words : ∀ segment ∈ first :: rest, isWord segment = true) :
    '/' :: (withoutFirstSlashes path).toList = pathChars (first :: rest) := by
  have isSlash : ∀ char ∈ List.replicate slashes '/', (char == '/') = true := fun char member => by
    rw [List.eq_of_mem_replicate member]
    rfl
  have written : ("/".intercalate (first :: rest)).toList = first.toList ++ pathChars rest := by
    rw [String.toList_intercalate]
    exact Text.intercalate_eq_marked '/' first.toList (rest.map String.toList)
  have isFirst : isWord first = true := words first List.mem_cons_self
  have noSlash : ∀ char ∈ (first.toList ++ pathChars rest).head?, (char == '/') = false := by
    obtain ⟨head, more, isHead⟩ := List.exists_cons_of_ne_nil
      fun none => ne_empty_of_isWord isFirst (String.toList_eq_nil_iff.mp none)
    rw [isHead]
    rintro _ ⟨⟩
    exact beq_eq_false_iff_ne.mpr ((isSegment_of_isWord "" isFirst).not_slash head
      (isHead ▸ List.mem_cons_self))
  unfold withoutFirstSlashes
  rw [String.toList_ofList, isPath, written, (cut_at isSlash noSlash).2]
  rfl

theorem withoutLastSlashes_toList (text : String) :
    (withoutLastSlashes text).toList = withoutLast text.toList := String.toList_ofList

/-- What is asked for is put behind a text as names. -/
theorem toList_versioned {path : String} {names : List String}
    (isPath : '/' :: (withoutFirstSlashes path).toList = pathChars names) (front : String) :
    (front ++ "/v1/" ++ withoutFirstSlashes path).toList =
      front.toList ++ pathChars ("v1" :: names) := by
  have version : "/v1/".toList = '/' :: ("v1".toList ++ ['/']) := by decide +kernel
  rw [String.toList_append, String.toList_append, version, pathChars_cons, ← isPath]
  simp only [List.append_assoc, List.cons_append, List.nil_append]

/-- The slashes at the end of a URL stand behind its scheme. -/
theorem withoutLast_text (url : Url) : withoutLast url.text.toList =
    url.scheme.toList ++ ':' :: withoutLast url.restChars := by
  have last : (url.scheme.toList ++ [':']).getLast? ≠ some '/' := by
    rw [List.getLast?_concat]
    decide
  have stripped := withoutLast_append last url.restChars
  rw [List.append_assoc, List.append_assoc] at stripped
  rw [toList_text]
  exact stripped

/-- For a URL as it is kept, a word path is on the server when names can be put behind it. -/
theorem addresses_iff_of_kept [DomainNames] {settings : ServerSettings}
    (kept : settings.address.Kept) {path : String} (isPath : IsWordPath path) :
    settings.Addresses path ↔ settings.address.TakesNames := by
  obtain ⟨slashes, first, rest, isWritten, words⟩ := isPath
  have areNames := areNames_of_words words settings.address.scheme
  have written := withoutFirstSlashes_eq isWritten words
  have isUrl : settings.apiUrl path = String.ofList (settings.address.scheme.toList ++
      ':' :: (withoutLast settings.address.restChars ++ pathChars ("v1" :: first :: rest))) := by
    rw [← String.ofList_toList (s := settings.apiUrl path), apiUrl, toList_versioned written,
      withoutLastSlashes_toList, withoutLast_text, List.append_assoc, List.cons_append]
  have samePath (url : Url) : url.path.text =
        withoutLastSlashes settings.address.path.text ++ "/v1/" ++ withoutFirstSlashes path ↔
      url.path.text.toList = withoutLast settings.address.path.text.toList ++
        pathChars ("v1" :: first :: rest) := by
    rw [← String.toList_inj, toList_versioned written, withoutLastSlashes_toList]
  rw [← kept.below_iff areNames]
  unfold Addresses
  rw [isUrl, parse_of_isScheme kept.scheme (visible_getLast? areNames _)]
  exact exists_congr fun url => and_congr_right fun _ => and_congr_right fun _ =>
    and_congr_right fun _ => and_congr_right fun _ => samePath url

/-- Requests for word paths are addressed to the configured server exactly when names can be put
behind its URL. -/
theorem api_addresses_iff [DomainNames] (settings : ServerSettings) (path : String)
    (accepted : settings.Accepted) (isPath : IsWordPath path) :
    settings.Addresses path ↔ settings.address.TakesNames :=
  addresses_iff_of_kept accepted.kept isPath

attribute [local instance] asciiNames

/-- A server below a path, with slashes at its end. -/
def behindPath : ServerSettings where
  address := ⟨"https", some { host := .name "h", port := some 8200 }, .segments ["b", "", ""],
    none, none⟩

/-- A server at an address that has a query. -/
def behindQuery : ServerSettings where
  address := ⟨"http", some { host := .name "h", port := some 8200 }, .segments [""], some "x=1",
    none⟩

/-- The environment that names the second address. -/
def queryEnvironment : Environment :=
  [("VAULT_ADDR", "http://h:8200/?x=1".toList.flatMap String.utf8EncodeChar)]

theorem api_addresses_behind_path :
    behindPath.Accepted ∧ behindQuery.Accepted ∧ IsWordPath "//a/b-c" ∧
      behindPath.Addresses "//a/b-c" ∧ ¬behindQuery.Addresses "//a/b-c" := by
  have fromAddress : (forAddress "https://h:8200/b//").toOption = some behindPath := by
    decide +kernel
  have fromVariable : (fromEnvironment queryEnvironment).toOption = some behindQuery := by
    decide +kernel
  have atPath : behindPath.Accepted := .forAddress (toOption_eq_some_iff.mp fromAddress)
  have atQuery : behindQuery.Accepted := .fromEnvironment (toOption_eq_some_iff.mp fromVariable)
  have isPath : IsWordPath "//a/b-c" :=
    ⟨2, "a", ["b-c"], by decide +kernel, List.all_eq_true.mp (by decide +kernel)⟩
  refine ⟨atPath, atQuery, isPath,
    (api_addresses_iff behindPath "//a/b-c" atPath isPath).mpr ?_, fun addresses => ?_⟩
  · exact ⟨rfl, rfl, fun file => absurd file (by decide +kernel)⟩
  · have takes := (api_addresses_iff behindQuery "//a/b-c" atQuery isPath).mp addresses
    exact absurd takes.1 nofun

/-- With a query in the address of the server, all requests are for the one path in front of it. -/
theorem api_path_lost_behind_query :
    (forAddress "http://h:8200/?x=1").toOption = some behindQuery ∧ IsWordPath "a" ∧
      ¬behindQuery.Addresses "a" := by
  refine ⟨by decide +kernel,
    ⟨0, "a", [], by decide +kernel, List.all_eq_true.mp (by decide +kernel)⟩, ?_⟩
  rintro ⟨url, parsed, -, -, -, isPath⟩
  have lost : (Url.parse (behindQuery.apiUrl "a")).toOption.map (·.path.text) = some "/" := by
    decide +kernel
  rw [parsed] at lost
  have isRoot : url.path.text = "/" := Option.some.inj lost
  rw [isRoot] at isPath
  exact absurd isPath (by decide +kernel)

end ServerSettings

end SecretRenewal
