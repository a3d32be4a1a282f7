/-
This file holds everything that loading secrets can fail with. Faults in a configuration are
found when a loader is built; the other errors arise while a cycle runs. An error says what
happened, the words for it are in one function, and an error that wraps another one gives it
out as its source, so that the chain of causes can be followed to its end. What an error says that
wraps a fault of a text depends on how the reader of texts words that, which is an argument here.
-/
import SecretRenewal.Json.Problem

namespace SecretRenewal

/-- What is wrong with a configuration. -/
inductive ConfigError
  /-- There is no secret to load. -/
  | noSecrets
  /-- There is nothing to obtain tokens from. -/
  | noAuthProvider
  /-- There is no store to read from. -/
  | noClient
  /-- Renewal has nothing to write into. -/
  | noSink
  /-- Renewal was asked for where no background task can run. -/
  | noRuntime
  /-- An address is no absolute URL. -/
  | invalidUrl (field reason : String)
  deriving DecidableEq

/-- A fault of a configuration in words. -/
def ConfigError.message : ConfigError → String
  | noSecrets => "at least one secret must be configured"
  | noAuthProvider => "an auth provider is required"
  | noClient => "a secret store client is required"
  | noSink => "background renewal requires a configuration sink"
  | noRuntime => "background renewal must be configured inside a Tokio runtime"
  | invalidUrl field reason => "Invalid URL for " ++ field ++ ": " ++ reason

/-- What a cycle or a background task can fail with. -/
inductive LoadError
  /-- The server cannot be reached or cannot answer. -/
  | unavailable (reason : String)
  /-- No token was obtained. -/
  | authenticationFailed (reason : String)
  /-- There is no secret at a path. -/
  | secretNotFound (path : String)
  /-- A path may not be read. -/
  | permissionDenied (path : String)
  /-- The server asks for fewer requests. -/
  | rateLimited
  /-- An answer does not have the form it should have. -/
  | malformed (fault : Json.Fault)
  /-- An answer did not arrive whole. -/
  | transfer (reason : String)
  /-- The configuration is wrong. -/
  | invalidConfig (fault : ConfigError)
  /-- Every retry of a cycle failed, the last one with this error. -/
  | retryExhausted (attempts : UInt32) (source : LoadError)
  /-- The background task broke down. -/
  | watcherAborted (reason : String)
  deriving DecidableEq

namespace LoadError

/-- An error in words, given those for faults of texts. -/
def message (words : Json.Fault → String) : LoadError → String
  | unavailable reason => "Vault unavailable: " ++ reason
  | authenticationFailed reason => "Authentication failed: " ++ reason
  | secretNotFound path => "Secret not found at path: " ++ path
  | permissionDenied path => "Permission denied: " ++ path
  | rateLimited => "Rate limited"
  | malformed fault => "Serialization error: " ++ words fault
  | transfer reason => "HTTP error: " ++ reason
  | invalidConfig fault => "Invalid configuration: " ++ fault.message
  | retryExhausted attempts source =>
    "Refresh failed after " ++ toString attempts.toNat ++ " attempts: " ++ source.message words
  | watcherAborted reason => "Poll watcher aborted: " ++ reason

/-- The error for a text that could not be read. -/
def ofProblem (problem : Json.Problem) : LoadError := .malformed (.text problem)

/-- Whether trying again may help. -/
def isRetryable : LoadError → Bool
  | unavailable _ => true
  | rateLimited => true
  | transfer _ => true
  | _ => false

/-- An error that another one wraps. -/
inductive Cause
  /-- An error of a cycle. -/
  | load (error : LoadError)
  /-- A fault of a configuration. -/
  | config (fault : ConfigError)
  /-- A text of the wrong form, or one that could not be read. -/
  | json (fault : Json.Fault)
  /-- An answer that did not arrive whole. -/
  | transfer (reason : String)
  /-- Something behind a broken stream, with what is behind it in turn. -/
  | stream (reason : String) (behind : List String)
  deriving DecidableEq

/-- A cause in words, given those for faults of texts. -/
def Cause.message (words : Json.Fault → String) : Cause → String
  | load error => error.message words
  | config fault => fault.message
  | json fault => words fault
  | transfer reason => reason
  | stream reason _ => reason

/-- What is behind a broken stream, one inside the other. -/
def causesBehind : List String → List Cause
  | [] => []
  | reason :: behind => .stream reason behind :: causesBehind behind

/-- The errors that an error wraps, one inside the other. -/
def chain : LoadError → List Cause
  | malformed fault => .json fault :: causesBehind fault.behind
  | transfer reason => [.transfer reason]
  | invalidConfig fault => [.config fault]
  | retryExhausted _ source => .load source :: source.chain
  | _ => []

end LoadError

end SecretRenewal
