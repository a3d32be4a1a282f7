/-
This file holds the settings of a client of web servers, and says which texts may be sent as the
value of a header: those without control characters, a tab apart. A client whose own name is no
such text cannot be built.
-/
import SecretRenewal.Duration

namespace SecretRenewal

/-- Whether a text may be the value of a header. -/
def isHeaderValue (text : String) : Bool :=
  text.toList.all fun char => (decide (' ' ≤ char) && char != '\x7f') || char == '\t'

/-- The settings of a client. -/
structure HttpSettings where
  /-- How long a request may take. -/
  timeout : Duration := Duration.ofSeconds 30
  /-- How long it may take to connect. -/
  connectTimeout : Duration := Duration.ofSeconds 10
  /-- How many idle connections to one host are kept. -/
  idlePerHost : Nat := 4
  /-- What the client calls itself. -/
  userAgent : String := "config-loader/0.1.0"
  deriving DecidableEq

/-- Whether a client can be built. -/
def HttpSettings.builds (settings : HttpSettings) : Bool := isHeaderValue settings.userAgent

end SecretRenewal
