/-
This file proves that what stands between two slashes and a path is read from its own text. The at
sign after a user is the last one there is, since no host has one, and the colon in front of a port
is the first one outside of brackets. Both parts are written only where there is something to
write, so their signs are never left alone.
-/
import SecretRenewal.Proofs.Results
import SecretRenewal.Proofs.Url.Hosts

namespace SecretRenewal.Url

open Text

/-! ### Users -/

theorem splitUser_of_none {chars : List Char} (noAt : ∀ char ∈ chars, char ≠ '@') :
    splitUser chars = (none, chars) := by
  unfold splitUser
  rw [if_neg fun contains => noAt '@' (List.contains_iff_mem.mp contains) rfl]

theorem splitUser_of_at (user : List Char) {host : List Char} (noAt : ∀ char ∈ host, char ≠ '@') :
    splitUser (user ++ '@' :: host) = (some user, host) := by
  have found : (user ++ '@' :: host).contains '@' = true :=
    List.contains_iff_mem.mpr (List.mem_append_right _ List.mem_cons_self)
  have last : ((user ++ '@' :: host).reverse.takeWhile (· != '@')).reverse = host := by
    rw [List.reverse_append, List.reverse_cons, List.append_assoc,
      List.takeWhile_append_of_pos fun char member =>
        bne_iff_ne.mpr (noAt char (List.mem_reverse.mp member))]
    simp
  unfold splitUser
  rw [if_pos found, last]
  dsimp only
  have length : (user ++ '@' :: host).length - host.length - 1 = user.length := by
    rw [List.length_append, List.length_cons]
    omega
  rw [length, List.take_left]

/-- A password and the colon in front of it, if there is one. -/
def passwordChars (password : String) : List Char :=
  if password = "" then [] else ':' :: password.toList

/-- A user and a password are read from their own text. -/
theorem readUser_append {user password : String}
    (plainUser : ∀ char ∈ user.toList, escapedInUserInfo char = false)
    (plainPassword : ∀ char ∈ password.toList, escapedInUserInfo char = false) :
    readUser (user.toList ++ passwordChars password) = (user, password) := by
  have noColon : ∀ char ∈ user.toList, (char != ':') = true := fun char member =>
    bne_iff_ne.mpr (ne_of_outside (plainUser char member) rfl)
  have colonNext : ∀ char ∈ (passwordChars password).head?, (char != ':') = false := by
    unfold passwordChars
    split
    · exact nofun
    · rintro char ⟨⟩
      rfl
  obtain ⟨front, rest⟩ := cut_at noColon colonNext
  have isPassword : (passwordChars password).drop 1 = password.toList := by
    unfold passwordChars
    split
    · rename_i empty
      rw [empty]
      rfl
    · rfl
  unfold readUser
  dsimp only
  rw [front, rest, isPassword, escape_toList plainUser, escape_toList plainPassword]

/-! ### Ports -/

theorem readPort_toDigits {scheme : String} {port : Nat} (small : port ≤ 65535)
    (notDefault : defaultPort? scheme ≠ some port) :
    readPort scheme (Nat.toDigits 10 port) = .ok (some port, []) := by
  have areDigits : ∀ char ∈ Nat.toDigits 10 port, (digitIn? 10 char).isSome = true := by
    intro char member
    obtain ⟨digit, isDigit, rfl⟩ := exists_digit_of_mem (by decide) member
    rw [digitIn?_digitChar isDigit (by decide)]
    rfl
  unfold readPort
  dsimp only
  rw [List.takeWhile_eq_self_iff.mpr areDigits, List.dropWhile_eq_nil_iff.mpr areDigits,
    numberIn?_toDigits (by decide) (by decide), Option.getD_some, if_neg (Nat.not_lt.mpr small),
    if_neg (by exact nofun), if_neg]
  rintro (none | isDefault)
  · exact Nat.toDigits_ne_nil none
  · exact notDefault isDefault

theorem readPort_eq_ok {scheme : String} {chars more : List Char} {port : Option Nat}
    (read : readPort scheme chars = .ok (port, more)) :
    ∀ given ∈ port, given ≤ 65535 ∧ defaultPort? scheme ≠ some given := by
  unfold readPort at read
  dsimp only at read
  split at read
  · cases read
  rename_i small
  split at read
  · cases read
  split at read
  · cases read
    exact nofun
  · rename_i kept
    cases read
    rintro _ ⟨⟩
    exact ⟨Nat.not_lt.mp small, fun isDefault => kept (.inr isDefault)⟩

/-! ### The parts together -/

/-- What is made of a host that was read, with its port and its user. -/
def withHost (scheme : String) (userInfo : String × String) (portChars : Option (List Char))
    (rest : List Char) (host : Host) : Except Fault (Authority × List Char) :=
  if host = .name "" ∧ portChars.isSome then .error .emptyHost
  else portChars.elim (.ok (none, [])) (readPort scheme) >>= fun port =>
    if host = .name "" ∧ ¬(userInfo.1 = "" ∧ userInfo.2 = "") then .error .emptyHost
    else .ok (⟨userInfo.1, userInfo.2, host, port.1⟩, port.2 ++ rest)

theorem readAuthority_eq [DomainNames] {scheme : String}
    {chars front rest hostChars name : List Char} {userChars portChars : Option (List Char)}
    (isFront : (chars.takeWhile fun char => !endsAuthority (isSpecial scheme) char) = front)
    (isRest : (chars.dropWhile fun char => !endsAuthority (isSpecial scheme) char) = rest)
    (isUser : splitUser front = (userChars, hostChars))
    (isPort : splitPort false hostChars = (name, portChars)) :
    readAuthority scheme chars =
      if userChars = some [] ∧ hostChars = [] ∧ rest ≠ [] then .error .emptyHost
      else if isSpecial scheme = true ∧ name = [] then .error .emptyHost
      else Host.read (isSpecial scheme) name >>=
        withHost scheme (readUser (userChars.getD [])) portChars rest := by
  unfold readAuthority
  dsimp only
  rw [isFront, isRest, isUser]
  dsimp only
  rw [isPort]
  cases isSpecial scheme <;> rfl

/-- What stands between two slashes and a path, as it is kept once it was read. -/
structure Authority.Kept [DomainNames] (scheme : String) (authority : Authority) : Prop where
  user : ∀ char ∈ authority.user.toList, escapedInUserInfo char = false
  password : ∀ char ∈ authority.password.toList, escapedInUserInfo char = false
  host : authority.host.Kept (isSpecial scheme)
  port : ∀ port ∈ authority.port, port ≤ 65535 ∧ defaultPort? scheme ≠ some port
  /-- Without a host there is nothing else. -/
  nobody : authority.host = .name "" →
    authority.user = "" ∧ authority.password = "" ∧ authority.port = none

namespace Authority

/-- What is written between two slashes and a path. -/
def chars (authority : Authority) : List Char :=
  authority.userText.toList ++ authority.hostText.toList

theorem userText_toList (authority : Authority) : authority.userText.toList =
    if authority.user = "" ∧ authority.password = "" then []
    else authority.user.toList ++ (passwordChars authority.password ++ ['@']) := by
  unfold userText passwordChars
  split
  · rfl
  · rw [String.toList_append, String.toList_append, List.append_assoc]
    split
    · rfl
    · rw [String.toList_append]
      rfl

/-- A port and the colon in front of it, if there is one. -/
def portChars (port : Option Nat) : List Char :=
  port.elim [] fun port => ':' :: Nat.toDigits 10 port

theorem hostText_toList (authority : Authority) : authority.hostText.toList =
    authority.host.text.toList ++ portChars authority.port := by
  unfold hostText portChars
  rw [String.toList_append]
  cases authority.port with
  | none => rfl
  | some port =>
    refine congrArg (authority.host.text.toList ++ ·) ?_
    show (":" ++ toString port).toList = ':' :: Nat.toDigits 10 port
    rw [String.toList_append]
    exact congrArg (':' :: ·) Nat.toList_repr

variable [DomainNames] {scheme : String} {authority : Authority}

theorem Kept.mem_hostText (kept : authority.Kept scheme) {char : Char}
    (member : char ∈ authority.hostText.toList) :
    isControl char = false ∧ char ≠ '@' ∧ endsAuthority true char = false := by
  rw [hostText_toList] at member
  rcases List.mem_append.mp member with inHost | inPort
  · exact kept.host.mem_text inHost
  · unfold portChars at inPort
    cases isPort : authority.port with
    | none =>
      rw [isPort] at inPort
      cases inPort
    | some port =>
      rw [isPort] at inPort
      rcases List.mem_cons.mp inPort with rfl | digit
      · decide
      · obtain ⟨value, small, rfl⟩ := exists_digit_of_mem (by decide) digit
        have all : ∀ value < 10, isControl (Nat.digitChar value) = false ∧
            Nat.digitChar value ≠ '@' ∧ endsAuthority true (Nat.digitChar value) = false := by
          decide
        exact all value small

theorem Kept.mem_userText (kept : authority.Kept scheme) {char : Char}
    (member : char ∈ authority.userText.toList) :
    isControl char = false ∧ endsAuthority true char = false := by
  have ofUser {char : Char} (plain : escapedInUserInfo char = false) :
      isControl char = false ∧ endsAuthority true char = false := by
    refine ⟨not_isControl_of_userInfo plain, ?_⟩
    simp only [endsAuthority, isSlash, Bool.true_and, Bool.or_eq_false_iff, beq_eq_false_iff_ne]
    exact ⟨⟨⟨ne_of_outside plain rfl, ne_of_outside plain rfl⟩, ne_of_outside plain rfl⟩,
      ne_of_outside plain rfl⟩
  rw [userText_toList] at member
  split at member
  · cases member
  · rcases List.mem_append.mp member with inUser | member
    · exact ofUser (kept.user char inUser)
    rcases List.mem_append.mp member with inPassword | last
    · unfold passwordChars at inPassword
      split at inPassword
      · cases inPassword
      · rcases List.mem_cons.mp inPassword with rfl | inPassword
        · decide
        · exact ofUser (kept.password char inPassword)
    · rw [List.mem_singleton.mp last]
      decide

theorem Kept.mem_chars (kept : authority.Kept scheme) {char : Char}
    (member : char ∈ authority.chars) :
    isControl char = false ∧ endsAuthority true char = false := by
  rcases List.mem_append.mp member with inUser | inHost
  · exact kept.mem_userText inUser
  · obtain ⟨visible, -, goesOn⟩ := kept.mem_hostText inHost
    exact ⟨visible, goesOn⟩

/-- Where a scheme has rules for its hosts, something is written there. -/
theorem Kept.chars_ne_nil (kept : authority.Kept scheme) (special : isSpecial scheme = true) :
    authority.chars ≠ [] := by
  intro none
  have noHost := (List.append_eq_nil_iff.mp none).2
  rw [hostText_toList] at noHost
  exact Host.Kept.text_ne_nil (special ▸ kept.host) (List.append_eq_nil_iff.mp noHost).1

/-- Where nothing is written there is no host. -/
theorem Kept.nobody_of_chars (kept : authority.Kept scheme) (empty : authority.chars = []) :
    authority.host = .name "" ∧ authority.port = none := by
  obtain ⟨-, noHostText⟩ := List.append_eq_nil_iff.mp empty
  rw [hostText_toList] at noHostText
  have nobody := kept.host.eq_of_text_nil (List.append_eq_nil_iff.mp noHostText).1
  exact ⟨nobody, (kept.nobody nobody).2.2⟩

/-- The user is cut off the host again. -/
theorem Kept.splitUser_chars (kept : authority.Kept scheme) : ∃ user,
    splitUser authority.chars = (user, authority.hostText.toList) ∧ user ≠ some [] ∧
      readUser (user.getD []) = (authority.user, authority.password) := by
  have noAt : ∀ char ∈ authority.hostText.toList, char ≠ '@' := fun char member =>
    (kept.mem_hostText member).2.1
  unfold chars
  rw [userText_toList]
  split
  · rename_i nobody
    rw [nobody.1, nobody.2]
    exact ⟨none, splitUser_of_none noAt, nofun, rfl⟩
  · rename_i somebody
    refine ⟨some (authority.user.toList ++ passwordChars authority.password), ?_, ?_,
      readUser_append kept.user kept.password⟩
    · rw [← List.append_assoc, List.append_assoc]
      exact splitUser_of_at _ noAt
    · intro empty
      obtain ⟨noUser, noPassword⟩ := List.append_eq_nil_iff.mp (Option.some.inj empty)
      refine somebody ⟨String.toList_eq_nil_iff.mp noUser, ?_⟩
      unfold passwordChars at noPassword
      split at noPassword
      · assumption
      · cases noPassword

/-- The port is cut off the host again. -/
theorem Kept.splitPort_chars (kept : authority.Kept scheme) :
    splitPort false authority.hostText.toList =
      (authority.host.text.toList, authority.port.map (Nat.toDigits 10)) := by
  rw [hostText_toList, kept.host.splitPort_text]
  unfold portChars
  cases authority.port with
  | none => rw [Option.elim_none, splitPort, List.append_nil, Option.map_none]
  | some port =>
    rw [Option.elim_some, splitPort, if_pos ⟨rfl, rfl⟩, List.append_nil, Option.map_some]

theorem Kept.readPort_chars (kept : authority.Kept scheme) :
    (authority.port.map (Nat.toDigits 10)).elim (.ok (none, [])) (readPort scheme) =
      .ok (authority.port, []) := by
  cases isPort : authority.port with
  | none => rfl
  | some port =>
    obtain ⟨small, notDefault⟩ := kept.port port isPort
    exact readPort_toDigits small notDefault

/-- What stands between two slashes and a path is read from its own text. -/
theorem Kept.readAuthority_chars (kept : authority.Kept scheme) {rest : List Char}
    (ends : ∀ char ∈ rest.head?, endsAuthority (isSpecial scheme) char = true) :
    readAuthority scheme (authority.chars ++ rest) = .ok (authority, rest) := by
  have inside : ∀ char ∈ authority.chars, (!endsAuthority (isSpecial scheme) char) = true := by
    intro char member
    have goesOn := (kept.mem_chars member).2
    cases isSpecial scheme with
    | true => rw [goesOn]; rfl
    | false =>
      simp only [endsAuthority, isSlash, Bool.true_and, Bool.or_eq_false_iff] at goesOn
      simp [endsAuthority, isSlash, goesOn]
  obtain ⟨front, back⟩ := cut_at inside fun char first => by rw [ends char first]; rfl
  obtain ⟨user, split, notEmpty, isUser⟩ := kept.splitUser_chars
  have named : ¬(isSpecial scheme = true ∧ authority.host.text.toList = []) := by
    rintro ⟨special, empty⟩
    exact Host.Kept.text_ne_nil (special ▸ kept.host) empty
  have noPort : ¬(authority.host = .name "" ∧
      (authority.port.map (Nat.toDigits 10)).isSome = true) := by
    rintro ⟨nobody, hasPort⟩
    rw [(kept.nobody nobody).2.2] at hasPort
    cases hasPort
  have noUser : ¬(authority.host = .name "" ∧
      ¬(authority.user = "" ∧ authority.password = "")) := by
    rintro ⟨nobody, somebody⟩
    exact somebody ⟨(kept.nobody nobody).1, (kept.nobody nobody).2.1⟩
  rw [readAuthority_eq front back split kept.splitPort_chars, if_neg fun both => notEmpty both.1,
    if_neg named, kept.host.read_text, isUser]
  show withHost _ _ _ _ authority.host = _
  rw [withHost, if_neg noPort, kept.readPort_chars]
  exact if_neg noUser

/-- Whatever is read there is kept in this form. -/
theorem kept_of_readAuthority {chars rest : List Char}
    (read : readAuthority scheme chars = .ok (authority, rest)) : authority.Kept scheme := by
  obtain ⟨userChars, hostChars, isUser⟩ : ∃ user host,
      splitUser (chars.takeWhile fun char => !endsAuthority (isSpecial scheme) char) =
        (user, host) := ⟨_, _, rfl⟩
  obtain ⟨name, portChars, isPort⟩ : ∃ name port, splitPort false hostChars = (name, port) :=
    ⟨_, _, rfl⟩
  rw [readAuthority_eq rfl rfl isUser isPort] at read
  split at read
  · cases read
  split at read
  · cases read
  obtain ⟨host, isHost, read⟩ := value_of_bind read
  unfold withHost at read
  split at read
  · cases read
  rename_i portOfHost
  obtain ⟨⟨port, more⟩, isPort, read⟩ := value_of_bind read
  split at read
  · cases read
  rename_i userOfHost
  cases read
  refine ⟨?_, ?_, Host.kept_of_read isHost, ?_, fun nobody => ?_⟩
  · exact fun char member => not_escaped_of_mem isSound_escapedInUserInfo member
  · exact fun char member => not_escaped_of_mem isSound_escapedInUserInfo member
  · cases portChars with
    | none =>
      cases isPort
      exact nofun
    | some chars => exact readPort_eq_ok isPort
  · have noPort : portChars = none := by
      cases portChars with
      | none => rfl
      | some chars => exact absurd ⟨nobody, rfl⟩ portOfHost
    rw [noPort] at isPort
    cases isPort
    have noUser : (readUser (userChars.getD [])).1 = "" ∧ (readUser (userChars.getD [])).2 = "" :=
      Decidable.not_not.mp fun somebody => userOfHost ⟨nobody, somebody⟩
    exact ⟨noUser.1, noUser.2, rfl⟩

end Authority

end SecretRenewal.Url
