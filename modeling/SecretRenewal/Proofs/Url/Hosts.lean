/-
This file proves that the host of a URL is written as a text that is read as the same host. A name
that was read is in a form that is kept when it is brought into ASCII again, and the addresses have
texts of their own.
-/
import SecretRenewal.Proofs.Url.Ipv4
import SecretRenewal.Proofs.Url.Ipv6
import SecretRenewal.Proofs.Url.Names

namespace SecretRenewal

namespace Url

open Text

section

variable [DomainNames]

/-! ### Hosts as they are kept -/

/-- A host as it is kept once it was read, by the rules of its scheme or as it stands. -/
inductive Host.Kept : (special : Bool) → Host → Prop
  | name {name : String} (nonempty : name ≠ "")
      (stays : DomainNames.toAscii? (Text.encode name) = some name.toList)
      (noNumber : endsInNumber name.toList = false) : Kept true (.name name)
  | plain {name : String}
      (each : ∀ char ∈ name.toList, isForbiddenInHost char = false ∧ isControl char = false) :
      Kept false (.name name)
  | ipv4 {address : Nat} (small : address < Nat.pow 2 32) : Kept true (.ipv4 address)
  | ipv6 {special : Bool} {words : List Nat} (eight : words.length = 8)
      (small : ∀ word ∈ words, word < 65536) : Kept special (.ipv6 words)

end

theorem unescape_of_none {chars : List Char} (plain : ∀ char ∈ chars, char ≠ '%') :
    unescape chars = chars.flatMap String.utf8EncodeChar := by
  induction chars with
  | nil => rfl
  | cons char chars inductionHypothesis =>
    obtain ⟨here, later⟩ := List.forall_mem_cons.mp plain
    rw [unescape.eq_def]
    split
    · rename_i same
      exact absurd (List.cons.inj same).1 here
    · rename_i same
      obtain ⟨rfl, rfl⟩ := List.cons.inj same
      rw [inductionHypothesis later]
      rfl
    · rename_i same
      cases same

theorem bracketed_ipv6Text {words : List Nat} (eight : words.length = 8)
    (small : ∀ word ∈ words, word < 65536) :
    bracketed ('[' :: ((ipv6Text words).toList ++ [']'])) = .ok (.ipv6 words) := by
  unfold bracketed
  rw [if_pos]
  · rw [List.drop_succ_cons, List.drop_zero, List.dropLast_concat, ipv6?_ipv6Text eight small]
  · rw [List.getLast?_cons, List.getLast?_concat]
    rfl

theorem mem_ipv4Text {address : Nat} {char : Char}
    (member : char ∈ (ipv4Text address).toList) : isKeptInName char = true ∧ char ≠ 'x' := by
  rw [ipv4Text_toList] at member
  rcases mem_intercalate member with mark | ⟨piece, isPiece, inside⟩
  · rw [List.mem_singleton.mp mark]
    decide
  · obtain ⟨byte, -, rfl⟩ := List.mem_map.mp isPiece
    obtain ⟨digit, small, rfl⟩ := exists_digit_of_mem (by decide) inside
    have all : ∀ digit < 10, isKeptInName (Nat.digitChar digit) = true ∧
        Nat.digitChar digit ≠ 'x' := by decide
    exact all digit small

theorem ipv4Text_ne_nil (address : Nat) : (ipv4Text address).toList ≠ [] := by
  rw [ipv4Text_toList]
  show ['.'].intercalate (_ :: _) ≠ []
  rw [intercalate_eq_marked]
  exact fun none => Nat.toDigits_ne_nil (List.append_eq_nil_iff.mp none).1

/-- No part of a name without the letter `x` is a code. -/
theorem not_isCode_of_ne {name : List Char} (noMark : ∀ char ∈ name, char ≠ 'x') :
    (pieces (· == '.') name).any isCode = false := by
  refine List.any_eq_false.mpr fun part isPart isCode => ?_
  obtain ⟨rest, isFirst⟩ := List.isPrefixOf_iff_prefix.mp isCode
  exact noMark 'x' (mem_of_mem_pieces isPart (isFirst ▸ List.mem_cons_self)) rfl

theorem Host.text_ipv6 (words : List Nat) : (Host.ipv6 words).text.toList =
    '[' :: ((ipv6Text words).toList ++ [']']) := by
  rw [Host.text, String.toList_append, String.toList_append]
  rfl

theorem mem_wordsText {words : List Nat} {char : Char} (member : char ∈ (wordsText words).toList) :
    char = ':' ∨ ∃ word, char ∈ Nat.toDigits 16 word := by
  unfold wordsText at member
  rw [String.toList_intercalate, List.map_map] at member
  rcases mem_intercalate member with mark | ⟨piece, isPiece, inside⟩
  · exact .inl (List.mem_singleton.mp mark)
  · obtain ⟨word, -, rfl⟩ := List.mem_map.mp isPiece
    rw [Function.comp_apply, String.toList_ofList] at inside
    exact .inr ⟨word, inside⟩

theorem mem_ipv6Text {words : List Nat} {char : Char} (member : char ∈ (ipv6Text words).toList) :
    char = ':' ∨ ∃ word, char ∈ Nat.toDigits 16 word := by
  unfold ipv6Text at member
  split at member
  · exact mem_wordsText member
  · rw [String.toList_append, String.toList_append] at member
    rcases List.mem_append.mp member with front | back
    · rcases List.mem_append.mp front with left | colons
      · exact mem_wordsText left
      · rcases List.mem_cons.mp colons with colon | colon
        · exact .inl colon
        · exact .inl (List.mem_singleton.mp colon)
    · exact mem_wordsText back

theorem splitPort_append {inBrackets : Bool} {front : List Char}
    (inside : ∀ char ∈ front, char ≠ '[' ∧ char ≠ ']' ∧ (char = ':' → inBrackets = true))
    (rest : List Char) : splitPort inBrackets (front ++ rest) =
      (front ++ (splitPort inBrackets rest).1, (splitPort inBrackets rest).2) := by
  induction front with
  | nil => rfl
  | cons char front inductionHypothesis =>
    obtain ⟨⟨notOpening, notClosing, colon⟩, later⟩ := List.forall_mem_cons.mp inside
    have noPort : ¬(char = ':' ∧ (!inBrackets) = true) := by
      rintro ⟨isColon, outside⟩
      rw [colon isColon] at outside
      cases outside
    rw [List.cons_append, splitPort, if_neg noPort, if_neg notOpening, if_neg notClosing,
      inductionHypothesis later]
    rfl

section

variable [DomainNames]

/-- Reads a host, by the rules of its scheme if it has some. -/
def Host.read (special : Bool) (chars : List Char) : Except Fault Host :=
  if special then Host.parse chars else Host.parsePlain chars

/-- The characters of a name that stays as it is may stand in one. -/
theorem isKeptInName_of_stays {chars : List Char}
    (stays : DomainNames.toAscii? (chars.flatMap String.utf8EncodeChar) = some chars) :
    ∀ char ∈ chars, isForbiddenInName char = false ∧ char.toLower = char := fun char member =>
  isKeptInName_iff.mp (List.all_eq_true.mp (DomainNames.all_isKeptInName stays) char member)

theorem stays_ipv4Text (address : Nat) :
    DomainNames.toAscii? ((ipv4Text address).toList.flatMap String.utf8EncodeChar) =
      some (ipv4Text address).toList :=
  DomainNames.toAscii?_of_all
    (List.all_eq_true.mpr fun _ member => (mem_ipv4Text member).1)
    (not_isCode_of_ne fun _ member => (mem_ipv4Text member).2)

/-- A name that stays as it is is read as it stands, but for addresses. -/
theorem Host.parse_of_stays {chars : List Char} (nonempty : chars ≠ [])
    (stays : DomainNames.toAscii? (chars.flatMap String.utf8EncodeChar) = some chars) :
    Host.parse chars =
      if endsInNumber chars then
        match ipv4? chars with
        | some address => .ok (.ipv4 address)
        | none => .error .invalidIpv4
      else .ok (.name (String.ofList chars)) := by
  have each := isKeptInName_of_stays stays
  have noBracket : chars.head? ≠ some '[' := by
    intro first
    exact ne_of_outside (each '[' (List.mem_of_mem_head? first)).1 rfl rfl
  have bytes : unescape chars = chars.flatMap String.utf8EncodeChar :=
    unescape_of_none fun char member => ne_of_outside (each char member).1 rfl
  unfold Host.parse
  rw [if_neg noBracket, bytes, stays]
  exact if_neg nonempty

theorem Host.read_true (chars : List Char) : Host.read true chars = Host.parse chars := rfl

theorem Host.read_false (chars : List Char) : Host.read false chars = Host.parsePlain chars := rfl

/-- A host is read from its own text. -/
theorem Host.Kept.read_text {special : Bool} {host : Host} (kept : host.Kept special) :
    Host.read special host.text.toList = .ok host := by
  cases kept with
  | @name name nonempty stays noNumber =>
    have some : name.toList ≠ [] := fun none => nonempty (String.toList_eq_nil_iff.mp none)
    rw [Host.read_true, Host.text, Host.parse_of_stays some stays,
      if_neg (by rw [noNumber]; exact nofun), String.ofList_toList]
  | @plain name each =>
    have noBracket : name.toList.head? ≠ some '[' := by
      intro first
      exact ne_of_outside (each '[' (List.mem_of_mem_head? first)).1 rfl rfl
    have allowed : name.toList.any isForbiddenInHost = false :=
      List.any_eq_false.mpr fun char member => by rw [(each char member).1]; exact nofun
    rw [Host.read_false, Host.text, Host.parsePlain]
    rw [if_neg noBracket, allowed, if_neg nofun,
      escape_toList fun char member => (each char member).2]
  | @ipv4 address small =>
    rw [Host.read_true, Host.text,
      Host.parse_of_stays (ipv4Text_ne_nil address) (stays_ipv4Text address),
      if_pos (endsInNumber_ipv4Text address), ipv4?_ipv4Text small]
  | @ipv6 _ words eight small =>
    have first : ('[' :: ((ipv6Text words).toList ++ [']'])).head? = some '[' := rfl
    rw [Host.text_ipv6]
    cases special with
    | false => rw [Host.read_false, Host.parsePlain, if_pos first, bracketed_ipv6Text eight small]
    | true => rw [Host.read_true, Host.parse, if_pos first, bracketed_ipv6Text eight small]

/-- Where a scheme has rules for its hosts, there is always one. -/
theorem Host.Kept.text_ne_nil {host : Host} (kept : host.Kept true) : host.text.toList ≠ [] := by
  cases kept with
  | name nonempty stays noNumber => exact fun none => nonempty (String.toList_eq_nil_iff.mp none)
  | ipv4 small => exact ipv4Text_ne_nil _
  | ipv6 eight small =>
    rw [Host.text_ipv6]
    exact List.cons_ne_nil _ _

/-- Only a host without a name has no text. -/
theorem Host.Kept.eq_of_text_nil {special : Bool} {host : Host} (kept : host.Kept special)
    (empty : host.text.toList = []) : host = .name "" := by
  cases kept with
  | name nonempty stays noNumber => exact absurd (String.toList_eq_nil_iff.mp empty) nonempty
  | plain each => exact congrArg Host.name (String.toList_eq_nil_iff.mp empty)
  | ipv4 small => exact absurd empty (ipv4Text_ne_nil _)
  | ipv6 eight small =>
    rw [Host.text_ipv6] at empty
    exact absurd empty (List.cons_ne_nil _ _)

theorem Host.kept_of_bracketed {special : Bool} {chars : List Char} {host : Host}
    (read : bracketed chars = .ok host) : host.Kept special := by
  unfold bracketed at read
  split at read
  · split at read
    · rename_i isAddress
      cases read
      obtain ⟨eight, small⟩ := eight_of_ipv6? isAddress
      exact .ipv6 eight small
    · cases read
  · cases read

theorem Host.kept_of_parsePlain {chars : List Char} {host : Host}
    (read : Host.parsePlain chars = .ok host) : host.Kept false := by
  unfold Host.parsePlain at read
  split at read
  · exact kept_of_bracketed read
  split at read
  · cases read
  · rename_i allowed
    cases read
    have outside : ∀ char ∈ chars, isForbiddenInHost char = false := by
      simpa using allowed
    refine .plain fun char member => ⟨?_, not_escaped_of_mem isSound_isControl member⟩
    exact forall_mem_escape (by decide) (by decide) (fun char inside _ => outside char inside)
      char member

theorem Host.kept_of_parse {chars : List Char} {host : Host}
    (read : Host.parse chars = .ok host) : host.Kept true := by
  unfold Host.parse at read
  split at read
  · exact kept_of_bracketed read
  split at read
  · cases read
  rename_i name isName
  split at read
  · cases read
  rename_i nonempty
  split at read
  · split at read
    · rename_i isAddress
      cases read
      exact .ipv4 (ipv4?_lt isAddress)
    · cases read
  · rename_i number
    cases read
    refine .name (fun none => nonempty (String.ofList_eq_empty_iff.mp none)) ?_ ?_
    · rw [Text.encode, String.toList_ofList]
      exact DomainNames.toAscii?_of_toAscii? isName
    · rw [String.toList_ofList]
      exact Bool.eq_false_iff.mpr number

/-- Every host that is read is kept in this form. -/
theorem Host.kept_of_read {special : Bool} {chars : List Char} {host : Host}
    (read : Host.read special chars = .ok host) : host.Kept special := by
  cases special with
  | false => exact kept_of_parsePlain read
  | true => exact kept_of_parse read

/-- The characters of a host leave the parts around it alone. -/
theorem Host.Kept.mem_text {special : Bool} {host : Host} (kept : host.Kept special) {char : Char}
    (member : char ∈ host.text.toList) :
    isControl char = false ∧ char ≠ '@' ∧ endsAuthority true char = false := by
  have ofHost {char : Char} (allowed : isForbiddenInHost char = false) :
      char ≠ '@' ∧ endsAuthority true char = false := by
    refine ⟨ne_of_outside allowed rfl, ?_⟩
    simp only [endsAuthority, isSlash, Bool.true_and, Bool.or_eq_false_iff, beq_eq_false_iff_ne]
    exact ⟨⟨⟨ne_of_outside allowed rfl, ne_of_outside allowed rfl⟩, ne_of_outside allowed rfl⟩,
      ne_of_outside allowed rfl⟩
  have ofName {char : Char} (allowed : isForbiddenInName char = false) :
      isControl char = false ∧ char ≠ '@' ∧ endsAuthority true char = false := by
    simp only [isForbiddenInName, Bool.or_eq_false_iff] at allowed
    exact ⟨allowed.1.2, ofHost allowed.1.1⟩
  cases kept with
  | name nonempty stays noNumber =>
    exact ofName (isKeptInName_of_stays stays char member).1
  | plain each => exact ⟨(each char member).2, ofHost (each char member).1⟩
  | ipv4 small => exact ofName (isKeptInName_iff.mp (mem_ipv4Text member).1).1
  | ipv6 eight small =>
    rw [Host.text_ipv6] at member
    rcases List.mem_cons.mp member with rfl | member
    · decide
    rcases List.mem_append.mp member with inside | last
    · rcases mem_ipv6Text inside with rfl | ⟨word, digit⟩
      · decide
      · obtain ⟨-, -, -, -, notAt, visible, goesOn⟩ := mem_word digit
        exact ⟨visible, notAt, goesOn⟩
    · rw [List.mem_singleton.mp last]
      decide

/-- No host is taken for a drive. -/
theorem Host.Kept.not_isDrive {host : Host} (kept : host.Kept true) :
    isDrive host.text = false := by
  have ofName {chars : List Char} (each : ∀ char ∈ chars, isForbiddenInName char = false)
      {letter mark : Char} (isPair : chars = [letter, mark]) :
      (mark == ':' || mark == '|') = false := by
    have allowed := each mark (isPair ▸ List.mem_cons_of_mem _ List.mem_cons_self)
    rw [Bool.or_eq_false_iff, beq_eq_false_iff_ne, beq_eq_false_iff_ne]
    exact ⟨ne_of_outside allowed rfl, ne_of_outside allowed rfl⟩
  unfold isDrive
  split
  · rename_i letter mark isPair
    rw [Bool.and_eq_false_iff]
    cases kept with
    | name nonempty stays noNumber =>
      exact .inr (ofName (fun char member => (isKeptInName_of_stays stays char member).1) isPair)
    | ipv4 small =>
      exact .inr (ofName
        (fun char member => (isKeptInName_iff.mp (mem_ipv4Text member).1).1) isPair)
    | ipv6 eight small =>
      rw [Host.text_ipv6] at isPair
      rw [← (List.cons.inj isPair).1]
      exact .inl (by decide)
  · rfl

/-- The port is looked for after the host. -/
theorem Host.Kept.splitPort_text {special : Bool} {host : Host} (kept : host.Kept special)
    (rest : List Char) : splitPort false (host.text.toList ++ rest) =
      (host.text.toList ++ (splitPort false rest).1, (splitPort false rest).2) := by
  have outside {chars : List Char} (each : ∀ char ∈ chars, isForbiddenInHost char = false) :
      splitPort false (chars ++ rest) =
        (chars ++ (splitPort false rest).1, (splitPort false rest).2) := by
    refine splitPort_append (fun char member => ⟨ne_of_outside (each char member) rfl,
      ne_of_outside (each char member) rfl, fun colon => ?_⟩) rest
    exact absurd colon (ne_of_outside (each char member) rfl)
  have ofName {char : Char} (allowed : isForbiddenInName char = false) :
      isForbiddenInHost char = false := by
    simp only [isForbiddenInName, Bool.or_eq_false_iff] at allowed
    exact allowed.1.1
  cases kept with
  | name nonempty stays noNumber =>
    exact outside fun char member => ofName (isKeptInName_of_stays stays char member).1
  | plain each => exact outside fun char member => (each char member).1
  | ipv4 small =>
    exact outside fun char member => ofName (isKeptInName_iff.mp (mem_ipv4Text member).1).1
  | @ipv6 _ words eight small =>
    have brackets : ∀ char ∈ (ipv6Text words).toList,
        char ≠ '[' ∧ char ≠ ']' ∧ (char = ':' → true = true) := by
      intro char member
      rcases mem_ipv6Text member with rfl | ⟨word, digit⟩
      · decide
      · obtain ⟨-, -, notOpening, notClosing, -⟩ := mem_word digit
        exact ⟨notOpening, notClosing, fun _ => rfl⟩
    rw [Host.text_ipv6, List.cons_append, splitPort, if_neg (by decide), if_pos rfl,
      List.append_assoc, splitPort_append brackets, List.cons_append, List.nil_append, splitPort,
      if_neg (by decide), if_neg (by decide), if_pos rfl]
    simp

end

end Url

end SecretRenewal
