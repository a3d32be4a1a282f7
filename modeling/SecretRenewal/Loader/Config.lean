/-
This file holds what a loader is built from, and the check that everything it needs is there.
The pieces are looked for in a fixed order and the first one missing is reported; whether a
background task can run is asked last, and only when one is wanted.
-/
import SecretRenewal.Error
import SecretRenewal.Secret

namespace SecretRenewal

/-- What a loader is built from. -/
structure LoaderConfig (client provider sink : Type) where
  /-- The store to read from. -/
  client : Option client := none
  /-- The secrets to load; a later one overrides an earlier one. -/
  secrets : List SecretDescriptor := []
  /-- Where tokens come from. -/
  authProvider : Option provider := none
  /-- Whether a background task keeps the values fresh. -/
  renew : Bool := false
  /-- What the background task writes into. -/
  sink : Option sink := none
  /-- How often at most the background task retries a failed cycle. -/
  maxRetry : UInt32 := 3
  /-- How long the background task waits before a retry. -/
  retryDelay : Duration := Duration.ofSeconds 1
  /-- Whether the background task ends when its retries are used up. -/
  stopOnFailure : Bool := false
  /-- How long the background task waits before the first cycle while no interval is known. -/
  initialDelay : Duration := Duration.ofSeconds 30

namespace LoaderConfig

variable {client provider sink : Type}

/-- Keeps a sink fresh in the background. -/
def withRenewal (config : LoaderConfig client provider sink) (target : sink) :
    LoaderConfig client provider sink :=
  { config with renew := true, sink := some target }

/-- The first piece that is missing, if one is. -/
def validate (config : LoaderConfig client provider sink) : Except ConfigError Unit :=
  if config.secrets.isEmpty then .error .noSecrets
  else if config.authProvider.isNone then .error .noAuthProvider
  else if config.client.isNone then .error .noClient
  else if config.renew && config.sink.isNone then .error .noSink
  else .ok ()

/-- A yes or no as it is shown. -/
def shownBool (value : Bool) : String := if value then "true" else "false"

/-- A configuration as it is shown: of the store, the source of tokens and the sink only whether
they are there. -/
def shown (config : LoaderConfig client provider sink) : String :=
  "LoaderConfig \x7b client: " ++ shownBool config.client.isSome ++
    ", secrets: " ++ SecretDescriptor.shownList config.secrets ++
    ", auth_provider: " ++ shownBool config.authProvider.isSome ++
    ", renew: " ++ shownBool config.renew ++
    ", sink: " ++ shownBool config.sink.isSome ++
    ", max_retry: " ++ toString config.maxRetry.toNat ++
    ", retry_delay: " ++ config.retryDelay.text ++
    ", stop_on_failure: " ++ shownBool config.stopOnFailure ++
    ", initial_delay: " ++ config.initialDelay.text ++ " \x7d"

end LoaderConfig

/-- What a loader keeps of its configuration for good. -/
structure LoaderSettings where
  /-- The secrets to load, in order. -/
  secrets : List SecretDescriptor
  /-- How often at most a failed background cycle is retried. -/
  maxRetry : UInt32
  /-- How long to wait before a retry. -/
  retryDelay : Duration
  /-- Whether the background task ends when its retries are used up. -/
  stopOnFailure : Bool
  /-- How long to wait before the first background cycle while no interval is known. -/
  initialDelay : Duration
  /-- Whether a background task was started. -/
  watched : Bool
  deriving DecidableEq

namespace LoaderSettings

/-- What every loader calls itself. -/
def name : String := "vault"

variable {client provider sink : Type}

/-- Builds a loader. `hasRuntime` says whether a background task can run here. -/
def build (config : LoaderConfig client provider sink) (hasRuntime : Bool) :
    Except ConfigError LoaderSettings :=
  match config.validate with
  | .error fault => .error fault
  | .ok () =>
    if config.renew && !hasRuntime then .error .noRuntime
    else .ok
      { secrets := config.secrets
        maxRetry := config.maxRetry
        retryDelay := config.retryDelay
        stopOnFailure := config.stopOnFailure
        initialDelay := config.initialDelay
        watched := config.renew && config.sink.isSome }

/-- What a program that cannot go on without a loader stops with. -/
def fatalMessage (fault : ConfigError) : String :=
  "invalid vault loader configuration: " ++ fault.message

/-- A loader as it is shown, with the interval it goes by. -/
def shown (settings : LoaderSettings) (interval : Option Duration) : String :=
  "Loader \x7b secrets: " ++ SecretDescriptor.shownList settings.secrets ++
    ", ttl: " ++ (match interval with
      | none => "None"
      | some span => "Some(" ++ span.text ++ ")") ++
    ", max_retry: " ++ toString settings.maxRetry.toNat ++
    ", retry_delay: " ++ settings.retryDelay.text ++
    ", stop_on_failure: " ++ LoaderConfig.shownBool settings.stopOnFailure ++
    ", renew: " ++ LoaderConfig.shownBool settings.watched ++ ", .. \x7d"

end LoaderSettings

end SecretRenewal
