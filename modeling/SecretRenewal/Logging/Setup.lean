/-
This file sets logging up when a program starts. The first set-up of a program counts, and says so
in the log; every later one fails, whatever it asks for. Which events are logged is said by the
environment, or by the settings where it says nothing that can be understood.
-/
import SecretRenewal.Environment
import SecretRenewal.Json.Value
import SecretRenewal.Logging.Filter

namespace SecretRenewal.Logging

/-- How a program logs. -/
structure Settings where
  /-- What the program calls itself. -/
  serviceName : String := "config-loader"
  /-- Which events are logged when the environment does not say. -/
  logLevel : String := "info"
  /-- Whether events are written as objects. -/
  jsonOutput : Bool := false
  deriving DecidableEq

/-- Logging as it was set up. -/
structure Logger where
  /-- Which events are logged. -/
  filter : Filter
  /-- Whether events are written as objects. -/
  jsonOutput : Bool

/-- An event, with one field besides its message. -/
structure Event where
  /-- How grave it is. -/
  level : Level
  /-- What it says. -/
  message : String
  /-- The name of the field. -/
  field : String
  /-- What the field holds. -/
  value : String

/-- The part of the program that the events of a set-up come from. -/
def setupTarget : String := "rust_common::tracing_config"

/-- An event as it is written, without its time. -/
def Event.written (event : Event) (jsonOutput : Bool) : Json :=
  if jsonOutput then
    .object (Entries.setAll [] [
      ("level", .text event.level.text),
      ("fields", .object (Entries.setAll []
        [("message", .text event.message), (event.field, .text event.value)])),
      ("target", .text setupTarget)])
  else .text (event.level.text ++ " " ++ setupTarget ++ ": " ++ event.message ++ " " ++
    event.field ++ "=" ++ event.value)

/-- What an event adds to a log. -/
def Logger.write (logger : Logger) (event : Event) : List Json :=
  if logger.filter.allows setupTarget event.level then [event.written logger.jsonOutput] else []

/-- The filter of a set-up. -/
def Settings.filter (settings : Settings) (environment : Environment) : Filter :=
  ((environment.text? "RUST_LOG").bind Filter.parse?).getD
    (Filter.parseLeniently settings.logLevel)

/-- Why a later set-up fails. -/
def alreadySet : String := "a global default trace dispatcher has already been set"

/-- What a set-up leaves: the logging there is now, what was logged, and whether it counted. -/
structure Setup where
  /-- The logging there is now. -/
  logger : Logger
  /-- What was logged. -/
  logged : List Json
  /-- Whether the set-up counted. -/
  counted : Bool

/-- Sets logging up, unless it was set up before. -/
def trySetup (installed : Option Logger) (environment : Environment) (settings : Settings) :
    Setup :=
  match installed with
  | some logger => ⟨logger, [], false⟩
  | none =>
    let logger : Logger := ⟨settings.filter environment, settings.jsonOutput⟩
    ⟨logger, logger.write ⟨.info, "Tracing initialized", "service", settings.serviceName⟩, true⟩

/-- Sets logging up and, where it was set up before, only notes that in the log. -/
def setup (installed : Option Logger) (environment : Environment) (settings : Settings) : Setup :=
  let tried := trySetup installed environment settings
  if tried.counted then tried
  else { tried with
    logged := tried.logger.write
      ⟨.debug, "Tracing subscriber already installed", "error", alreadySet⟩ }

end SecretRenewal.Logging
