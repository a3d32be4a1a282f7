/-
This file holds how a server of secrets is reached: its address, the namespace and the time limit
of requests, and how to log in. Settings are made for an address or taken from the environment,
where each variable that holds a text overrides one default. The address of a request is put
together as text, from the address of the server and the path that is asked for.
-/
import SecretRenewal.Environment
import SecretRenewal.Error
import SecretRenewal.Duration
import SecretRenewal.Url.Reader

namespace SecretRenewal

/-- How a server of secrets is reached. -/
structure ServerSettings where
  /-- The address of the server. -/
  address : Url
  /-- The namespace that requests name, if any. -/
  requestNamespace : Option String := none
  /-- How long a request may take. -/
  timeout : Duration := Duration.ofSeconds 30
  /-- The role to log in with. -/
  role : String := ""
  /-- Where on the server the login is mounted. -/
  authMount : String := "kubernetes"
  /-- The file that holds what the login presents. -/
  tokenPath : String := "/var/run/secrets/kubernetes.io/serviceaccount/token"
  deriving DecidableEq

/-- A setting that a text can be given for. -/
inductive TextSetting
  /-- The namespace that requests name. -/
  | requestNamespace
  /-- The role to log in with. -/
  | role
  /-- Where the login is mounted. -/
  | authMount
  /-- The file that holds what the login presents. -/
  | tokenPath
  deriving DecidableEq

namespace ServerSettings

/-- The settings with a text in place of what one of them was. -/
def withText (settings : ServerSettings) : TextSetting → String → ServerSettings
  | .requestNamespace, text => { settings with requestNamespace := some text }
  | .role, text => { settings with role := text }
  | .authMount, text => { settings with authMount := text }
  | .tokenPath, text => { settings with tokenPath := text }

/-- The settings for an address, which a field of this name gave. -/
def forField [Url.DomainNames] (field address : String) : Except ConfigError ServerSettings :=
  match Url.parse address with
  | .ok address => .ok { address }
  | .error fault => .error (.invalidUrl field fault.message)

/-- The settings for an address. -/
def forAddress [Url.DomainNames] (address : String) : Except ConfigError ServerSettings :=
  forField "addr" address

/-- The address of a server that none is given for. -/
def defaultAddress : String := "https://127.0.0.1:8200"

/-- The settings in the environment. An empty namespace is none. -/
def fromEnvironment [Url.DomainNames] (environment : Environment) :
    Except ConfigError ServerSettings := do
  let address := (environment.text? "VAULT_ADDR").getD defaultAddress
  let settings ← forField "VAULT_ADDR" address
  return { settings with
    requestNamespace := (environment.text? "VAULT_NAMESPACE").filter (· ≠ "")
    role := (environment.text? "VAULT_ROLE").getD settings.role
    authMount := (environment.text? "VAULT_AUTH_MOUNT").getD settings.authMount
    tokenPath := (environment.text? "VAULT_TOKEN_PATH").getD settings.tokenPath }

/-- A text without the slashes at its end. -/
def withoutLastSlashes (text : String) : String :=
  String.ofList (text.toList.reverse.dropWhile (· == '/')).reverse

/-- A text without the slashes in front. -/
def withoutFirstSlashes (text : String) : String :=
  String.ofList (text.toList.dropWhile (· == '/'))

/-- The address of a path on the server. -/
def apiUrl (settings : ServerSettings) (path : String) : String :=
  withoutLastSlashes settings.address.text ++ "/v1/" ++ withoutFirstSlashes path

end ServerSettings

end SecretRenewal
