/-
This file proves what the variables of an environment do to the settings. A variable that holds the
bytes of a text has that text as its setting, and one that is not set leaves the default. A variable
that holds bytes of no text is passed over as if it were not set, even where it is the address of
the server. So the settings are what the environment asks for exactly if every variable in it can be
read.
-/
import SecretRenewal.Proofs.Text.Strictness
import SecretRenewal.Proofs.Url.Forms
import SecretRenewal.Server.Settings

namespace SecretRenewal

/-- The variable that holds a setting. -/
def TextSetting.variableName : TextSetting → String
  | requestNamespace => "VAULT_NAMESPACE"
  | role => "VAULT_ROLE"
  | authMount => "VAULT_AUTH_MOUNT"
  | tokenPath => "VAULT_TOKEN_PATH"

/-- All settings that a variable holds. -/
def TextSetting.all : List TextSetting := [requestNamespace, role, authMount, tokenPath]

namespace Environment

variable {environment : Environment} {name : String}

/-- The bytes that a variable is set to, if they are those of a text. -/
def readable? (environment : Environment) (name : String) : Option (List UInt8) :=
  (environment.bytes? name).filter fun bytes => (Text.decode? bytes).isSome

theorem readable?_eq_some_iff {bytes : List UInt8} :
    environment.readable? name = some bytes ↔
      environment.bytes? name = some bytes ∧ ∃ text, bytes = Text.encode text := by
  unfold readable?
  rw [Option.filter_eq_some_iff, Option.isSome_iff_exists]
  simp only [Text.decode?_eq_some_iff]

theorem text?_eq_some_iff {text : String} :
    environment.text? name = some text ↔
      environment.readable? name = some (Text.encode text) := by
  unfold text?
  rw [Option.bind_eq_some_iff, readable?_eq_some_iff]
  constructor
  · rintro ⟨bytes, isSet, isText⟩
    rw [Text.decode?_eq_some_iff] at isText
    exact ⟨isText ▸ isSet, text, rfl⟩
  · rintro ⟨isSet, -⟩
    exact ⟨_, isSet, Text.decode?_encode text⟩

theorem text?_eq_none_iff :
    environment.text? name = none ↔ environment.readable? name = none := by
  rw [Option.eq_none_iff_forall_ne_some, Option.eq_none_iff_forall_ne_some]
  constructor
  · intro unread bytes isSet
    obtain ⟨-, text, rfl⟩ := readable?_eq_some_iff.mp isSet
    exact unread text (text?_eq_some_iff.mpr isSet)
  · exact fun unset text isText => unset _ (text?_eq_some_iff.mp isText)

/-- What is set to a text can be read. -/
theorem readable?_eq_bytes?
    (each : ∀ bytes, environment.bytes? name = some bytes → ∃ text, bytes = Text.encode text) :
    environment.readable? name = environment.bytes? name := by
  refine Option.ext fun bytes => ?_
  rw [readable?_eq_some_iff]
  exact and_iff_left_of_imp (each bytes)

end Environment

namespace ServerSettings

/-! ### What variables ask for -/

/-- Giving each of some settings the text that its variable holds turns the first settings into the
second. A variable that is not set changes nothing, and neither does an empty namespace. -/
inductive Applies (held : String → Option (List UInt8)) :
    List TextSetting → ServerSettings → ServerSettings → Prop
  | done (settings : ServerSettings) : Applies held [] settings settings
  | unset {setting : TextSetting} {others : List TextSetting} {before after : ServerSettings}
      (isUnset : held setting.variableName = none) (rest : Applies held others before after) :
      Applies held (setting :: others) before after
  | noNamespace {others : List TextSetting} {before after : ServerSettings}
      (isEmpty : held TextSetting.requestNamespace.variableName = some (Text.encode ""))
      (rest : Applies held others before after) :
      Applies held (.requestNamespace :: others) before after
  | set {setting : TextSetting} {others : List TextSetting} {before after : ServerSettings}
      {text : String} (isSet : held setting.variableName = some (Text.encode text))
      (counts : setting = .requestNamespace → text ≠ "")
      (rest : Applies held others (before.withText setting text) after) :
      Applies held (setting :: others) before after

/-- The settings are those for the address that the variables hold, or for the default one where
they hold none, with everything else that they hold applied. -/
def Obeys [Url.DomainNames] (held : String → Option (List UInt8)) (settings : ServerSettings) : Prop
    :=
  ∃ address start,
    (held "VAULT_ADDR" = some (Text.encode address) ∨
      held "VAULT_ADDR" = none ∧ address = defaultAddress) ∧
    forAddress address = .ok start ∧ Applies held TextSetting.all start settings

/-- All variables that settings are taken from. -/
def variableNames : List String := "VAULT_ADDR" :: TextSetting.all.map TextSetting.variableName

section

variable {held others : String → Option (List UInt8)} {before after : ServerSettings}

theorem Applies.congr {settings : List TextSetting}
    (same : ∀ setting ∈ settings, held setting.variableName = others setting.variableName)
    (applies : Applies held settings before after) : Applies others settings before after := by
  induction applies with
  | done settings => exact .done settings
  | unset isUnset rest inductionHypothesis =>
    refine .unset ((same _ List.mem_cons_self).symm.trans isUnset) (inductionHypothesis ?_)
    exact fun setting member => same setting (List.mem_cons_of_mem _ member)
  | noNamespace isEmpty rest inductionHypothesis =>
    refine .noNamespace ((same _ List.mem_cons_self).symm.trans isEmpty) (inductionHypothesis ?_)
    exact fun setting member => same setting (List.mem_cons_of_mem _ member)
  | set isSet counts rest inductionHypothesis =>
    refine .set ((same _ List.mem_cons_self).symm.trans isSet) counts (inductionHypothesis ?_)
    exact fun setting member => same setting (List.mem_cons_of_mem _ member)

theorem Obeys.congr [Url.DomainNames] (same : ∀ name ∈ variableNames, held name = others name)
    (obeys : Obeys held after) : Obeys others after := by
  obtain ⟨address, start, holds, isStart, applies⟩ := obeys
  refine ⟨address, start, ?_, isStart, applies.congr fun setting member => ?_⟩
  · rwa [← same _ List.mem_cons_self]
  · exact same _ (List.mem_cons_of_mem _ (List.mem_map_of_mem member))

/-- Variables that could be applied hold texts. -/
theorem Applies.exists_text {settings : List TextSetting}
    (applies : Applies held settings before after) :
    ∀ setting ∈ settings, ∀ bytes, held setting.variableName = some bytes →
      ∃ text, bytes = Text.encode text := by
  induction applies with
  | done settings => exact nofun
  | unset isUnset rest inductionHypothesis =>
    intro setting member bytes isHeld
    rcases List.mem_cons.mp member with rfl | later
    · rw [isUnset] at isHeld
      cases isHeld
    · exact inductionHypothesis setting later bytes isHeld
  | noNamespace isEmpty rest inductionHypothesis =>
    intro setting member bytes isHeld
    rcases List.mem_cons.mp member with rfl | later
    · exact ⟨_, Option.some.inj (isHeld.symm.trans isEmpty)⟩
    · exact inductionHypothesis setting later bytes isHeld
  | set isSet counts rest inductionHypothesis =>
    intro setting member bytes isHeld
    rcases List.mem_cons.mp member with rfl | later
    · exact ⟨_, Option.some.inj (isHeld.symm.trans isSet)⟩
    · exact inductionHypothesis setting later bytes isHeld

theorem Obeys.exists_text [Url.DomainNames] (obeys : Obeys held after) :
    ∀ name ∈ variableNames, ∀ bytes, held name = some bytes → ∃ text, bytes = Text.encode text := by
  obtain ⟨address, start, holds, -, applies⟩ := obeys
  intro name member bytes isHeld
  rcases List.mem_cons.mp member with rfl | later
  · rcases holds with isSet | ⟨unset, -⟩
    · exact ⟨_, Option.some.inj (isHeld.symm.trans isSet)⟩
    · rw [unset] at isHeld
      cases isHeld
  · obtain ⟨setting, isSetting, rfl⟩ := List.mem_map.mp later
    exact applies.exists_text setting isSetting bytes isHeld

end

/-! ### What an environment does -/

section

variable {environment : Environment} {before after : ServerSettings}

/-- The settings once a variable was looked at. -/
def applied (environment : Environment) (settings : ServerSettings) (setting : TextSetting) :
    ServerSettings :=
  match environment.text? setting.variableName with
  | none => settings
  | some text =>
    if setting = .requestNamespace ∧ text = "" then settings else settings.withText setting text

theorem applies_iff {settings : List TextSetting} :
    Applies environment.readable? settings before after ↔
      settings.foldl (applied environment) before = after := by
  induction settings generalizing before with
  | nil =>
    constructor
    · rintro ⟨⟩
      rfl
    · rintro rfl
      exact .done before
  | cons setting others inductionHypothesis =>
    rw [List.foldl_cons, ← inductionHypothesis, applied]
    cases isRead : environment.text? setting.variableName with
    | none =>
      have isUnset := Environment.text?_eq_none_iff.mp isRead
      refine ⟨fun applies => ?_, .unset isUnset⟩
      cases applies with
      | unset _ rest => exact rest
      | noNamespace isEmpty rest => exact rest
      | set isSet counts rest =>
        rw [isUnset] at isSet
        cases isSet
    | some text =>
      have isSet := Environment.text?_eq_some_iff.mp isRead
      dsimp only
      by_cases isNone : setting = .requestNamespace ∧ text = ""
      · rw [if_pos isNone]
        obtain ⟨rfl, rfl⟩ := isNone
        refine ⟨fun applies => ?_, .noNamespace isSet⟩
        cases applies with
        | unset _ rest => exact rest
        | noNamespace _ rest => exact rest
        | set isOther counts rest =>
          have same := Text.encode_injective (Option.some.inj (isOther.symm.trans isSet))
          exact absurd same (counts rfl)
      · rw [if_neg isNone]
        refine ⟨fun applies => ?_, .set isSet fun names isEmpty => isNone ⟨names, isEmpty⟩⟩
        cases applies with
        | unset isUnset rest =>
          rw [isSet] at isUnset
          cases isUnset
        | noNamespace isEmpty rest =>
          have same := Text.encode_injective (Option.some.inj (isSet.symm.trans isEmpty))
          exact absurd ⟨rfl, same⟩ isNone
        | set isOther counts rest =>
          have same := Text.encode_injective (Option.some.inj (isOther.symm.trans isSet))
          exact same ▸ rest

end

/-! ### Settings taken from an environment -/

/-- Settings for an address name no namespace. -/
theorem requestNamespace_of_forField [Url.DomainNames] {field address : String}
    {settings : ServerSettings} (isStart : forField field address = .ok settings) :
    settings.requestNamespace = none := by
  unfold forField at isStart
  split at isStart
  · cases isStart
    rfl
  · cases isStart

/-- The field that gave an address counts only for what is told of it. -/
theorem forField_eq_ok_iff [Url.DomainNames] {field address : String} {settings : ServerSettings} :
    forField field address = .ok settings ↔ forAddress address = .ok settings := by
  unfold forAddress forField
  split
  · rfl
  · exact ⟨nofun, nofun⟩

theorem forField_eq_error_iff [Url.DomainNames] {field address : String} {error : ConfigError} :
    forField field address = .error error ↔
      ∃ reason, forAddress address = .error (.invalidUrl "addr" reason) ∧
        error = .invalidUrl field reason := by
  unfold forAddress forField
  split
  · exact ⟨nofun, fun ⟨_, isError, _⟩ => by cases isError⟩
  · constructor
    · rintro ⟨⟩
      exact ⟨_, rfl, rfl⟩
    · rintro ⟨reason, ⟨⟩, rfl⟩
      rfl

section

variable (environment : Environment)

theorem applied_requestNamespace {settings : ServerSettings}
    (unnamed : settings.requestNamespace = none) :
    applied environment settings .requestNamespace =
      { settings with
        requestNamespace := (environment.text? "VAULT_NAMESPACE").filter (· ≠ "") } := by
  obtain ⟨address, requestNamespace, timeout, role, authMount, tokenPath⟩ := settings
  cases unnamed
  unfold applied TextSetting.variableName
  cases environment.text? "VAULT_NAMESPACE" with
  | none => rfl
  | some text =>
    by_cases isEmpty : text = ""
    · simp [Option.filter, isEmpty]
    · simp [Option.filter, isEmpty, withText]

/-- A setting that has no empty text set apart becomes what its variable holds. -/
theorem applied_of_ne {settings : ServerSettings} {setting : TextSetting}
    (other : setting ≠ .requestNamespace) :
    applied environment settings setting =
      ((environment.text? setting.variableName).map (settings.withText setting)).getD settings := by
  unfold applied
  cases environment.text? setting.variableName with
  | none => rfl
  | some text => exact if_neg fun isNamespace => other isNamespace.1

/-- The address that the settings in an environment are made for. -/
def addressIn : String := (environment.text? "VAULT_ADDR").getD defaultAddress

theorem fromEnvironment_eq [Url.DomainNames] :
    fromEnvironment environment =
      (forField "VAULT_ADDR" (addressIn environment)).map
        (TextSetting.all.foldl (applied environment)) := by
  unfold fromEnvironment
  change (forField "VAULT_ADDR" (addressIn environment) >>= _) = _
  cases isStart : forField "VAULT_ADDR" (addressIn environment) with
  | error error => rfl
  | ok start =>
    have unnamed := requestNamespace_of_forField isStart
    refine congrArg Except.ok ?_
    simp only [TextSetting.all, List.foldl_cons, List.foldl_nil]
    rw [applied_requestNamespace environment unnamed,
      applied_of_ne environment (show TextSetting.role ≠ _ from nofun),
      applied_of_ne environment (show TextSetting.authMount ≠ _ from nofun),
      applied_of_ne environment (show TextSetting.tokenPath ≠ _ from nofun)]
    simp only [TextSetting.variableName]
    cases environment.text? "VAULT_ROLE" <;> cases environment.text? "VAULT_AUTH_MOUNT" <;>
      cases environment.text? "VAULT_TOKEN_PATH" <;> rfl

variable {environment}

theorem isHeld_iff {address : String} :
    (environment.readable? "VAULT_ADDR" = some (Text.encode address) ∨
      environment.readable? "VAULT_ADDR" = none ∧ address = defaultAddress) ↔
      address = addressIn environment := by
  unfold addressIn
  cases isRead : environment.text? "VAULT_ADDR" with
  | none =>
    rw [Environment.text?_eq_none_iff.mp isRead]
    exact ⟨fun held => (held.resolve_left nofun).2, fun same => .inr ⟨rfl, same⟩⟩
  | some text =>
    rw [Environment.text?_eq_some_iff.mp isRead, Option.some_inj, Text.encode_injective.eq_iff]
    exact ⟨fun held => (held.resolve_right nofun).symm, fun same => .inl same.symm⟩

/-- The settings in an environment are what its variables that can be read ask for. -/
theorem fromEnvironment_eq_ok_iff [Url.DomainNames] {settings : ServerSettings} :
    fromEnvironment environment = .ok settings ↔ Obeys environment.readable? settings := by
  unfold Obeys
  simp only [isHeld_iff, applies_iff, ← @forField_eq_ok_iff _ "VAULT_ADDR", fromEnvironment_eq]
  constructor
  · intro taken
    cases isStart : forField "VAULT_ADDR" (addressIn environment) with
    | error error =>
      rw [isStart] at taken
      cases taken
    | ok start =>
      rw [isStart] at taken
      exact ⟨_, start, rfl, isStart, Except.ok.inj taken⟩
  · rintro ⟨_, start, rfl, isStart, rfl⟩
    rw [isStart]
    rfl

/-- Where the server is that no address is given for. -/
def defaultAuthority : Url.Authority := { host := .ipv4 2130706433, port := some 8200 }

/-- The default address is one, however names are brought into ASCII. -/
theorem forAddress_defaultAddress [Url.DomainNames] : forAddress defaultAddress =
    .ok { address := ⟨"https", some defaultAuthority, .segments [""], none, none⟩ } := by
  have isText : defaultAddress = String.ofList
      ("https".toList ++ ':' :: '/' :: '/' :: (defaultAuthority.chars ++ [])) := by decide +kernel
  have isLast : (':' :: '/' :: '/' :: (defaultAuthority.chars ++ [])).getLast? = some '0' := by
    decide +kernel
  have isVisible : ∀ char ∈ (':' :: '/' :: '/' :: (defaultAuthority.chars ++ [])).getLast?,
      ' ' < char := by
    rw [isLast]
    rintro _ ⟨⟩
    decide
  have kept : defaultAuthority.Kept "https" := {
    user := by
      rw [defaultAuthority, String.toList_empty]
      exact nofun
    password := by
      rw [defaultAuthority, String.toList_empty]
      exact nofun
    host := .ipv4 (by decide)
    port := by
      rintro _ ⟨⟩
      decide
    nobody := nofun }
  have isScheme : Url.IsScheme "https" :=
    Url.isScheme_of_all (by decide +kernel) (by decide +kernel)
  unfold forAddress forField
  rw [isText, Url.parse_of_isScheme isScheme isVisible,
    @Url.readAfterScheme_hosted _ _ [] _ (by decide) kept nofun nofun]
  rfl

/-- There are no settings in an environment exactly if the address in it is none. -/
theorem fromEnvironment_eq_error_iff [Url.DomainNames] {error : ConfigError} :
    fromEnvironment environment = .error error ↔
      ∃ address reason, environment.bytes? "VAULT_ADDR" = some (Text.encode address) ∧
        forAddress address = .error (.invalidUrl "addr" reason) ∧
        error = .invalidUrl "VAULT_ADDR" reason := by
  have refused : fromEnvironment environment = .error error ↔
      forField "VAULT_ADDR" (addressIn environment) = .error error := by
    rw [fromEnvironment_eq]
    cases forField "VAULT_ADDR" (addressIn environment) with
    | error error => exact ⟨id, id⟩
    | ok start => exact ⟨nofun, nofun⟩
  rw [refused, forField_eq_error_iff]
  constructor
  · rintro ⟨reason, isError, told⟩
    rcases isHeld_iff.mpr rfl with isSet | ⟨-, isDefault⟩
    · exact ⟨_, reason, (Environment.readable?_eq_some_iff.mp isSet).1, isError, told⟩
    · rw [isDefault] at isError
      rw [forAddress_defaultAddress] at isError
      cases isError
  · rintro ⟨address, reason, isSet, isError, told⟩
    have isRead : environment.readable? "VAULT_ADDR" = some (Text.encode address) :=
      Environment.readable?_eq_some_iff.mpr ⟨isSet, address, rfl⟩
    exact ⟨reason, isHeld_iff.mp (.inl isRead) ▸ isError, told⟩

/-- The settings in an environment are what its variables that hold texts ask for, and they are
what the environment asks for if these are all of them. Only an address that is none leaves
without settings. -/
theorem settings_obey_readable_variables [Url.DomainNames] (environment : Environment) :
    (∀ settings, fromEnvironment environment = .ok settings ↔
      Obeys environment.readable? settings) ∧
    (∀ settings, fromEnvironment environment = .ok settings →
      (Obeys environment.bytes? settings ↔ ∀ name ∈ variableNames, ∀ bytes,
        environment.bytes? name = some bytes → ∃ text, bytes = Text.encode text)) ∧
    (∀ error, fromEnvironment environment = .error error ↔
      ∃ address reason, environment.bytes? "VAULT_ADDR" = some (Text.encode address) ∧
        forAddress address = .error (.invalidUrl "addr" reason) ∧
        error = .invalidUrl "VAULT_ADDR" reason) := by
  refine ⟨fun settings => fromEnvironment_eq_ok_iff, fun settings taken => ?_,
    fun error => fromEnvironment_eq_error_iff⟩
  have obeys := fromEnvironment_eq_ok_iff.mp taken
  refine ⟨Obeys.exists_text, fun each => obeys.congr fun name member => ?_⟩
  exact Environment.readable?_eq_bytes? (each name member)

attribute [local instance] Url.asciiNames

/-- An address that is no text is passed over: the settings are for the default address. -/
theorem unreadable_address_passed_over : ∃ settings,
    Environment.bytes? [("VAULT_ADDR", [0xff])] "VAULT_ADDR" = some [0xff] ∧
      fromEnvironment [("VAULT_ADDR", [0xff])] = .ok settings ∧
      forAddress defaultAddress = .ok settings ∧
      ¬Obeys (Environment.bytes? [("VAULT_ADDR", [0xff])]) settings := by
  have isStart := forAddress_defaultAddress
  refine ⟨_, rfl, ?_, isStart, fun obeys => ?_⟩
  · have unread : Environment.readable? [("VAULT_ADDR", [0xff])] "VAULT_ADDR" = none := rfl
    rw [fromEnvironment_eq_ok_iff]
    exact ⟨defaultAddress, _, .inr ⟨unread, rfl⟩, isStart, applies_iff.mpr rfl⟩
  · obtain ⟨text, isText⟩ := obeys.exists_text "VAULT_ADDR" (.head _) [0xff] rfl
    rw [← Text.decode?_eq_some_iff] at isText
    cases isText

end

end ServerSettings

end SecretRenewal
