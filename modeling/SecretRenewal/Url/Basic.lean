/-
This file holds URLs by their components and writes them out. A URL has a scheme, perhaps a host
with what belongs to it, a path, and perhaps a query and a fragment. The components are kept as
they are written, so two URLs are the same exactly when their texts are.
-/
import SecretRenewal.Url.Host

namespace SecretRenewal

namespace Url

/-- What stands between two slashes and the path. -/
structure Authority where
  /-- The name of a user, or nothing. -/
  user : String := ""
  /-- The password of the user, or nothing. -/
  password : String := ""
  /-- The host; an empty name where there is none. -/
  host : Host
  /-- The port, unless it is the one of the scheme. -/
  port : Option Nat := none
  deriving DecidableEq

/-- The path of a URL. -/
inductive Path
  /-- Segments, each after a slash. -/
  | segments (segments : List String)
  /-- A text without structure. -/
  | plain (text : String)
  deriving DecidableEq

end Url

/-- A URL. -/
structure Url where
  /-- The scheme, in lower case. -/
  scheme : String
  /-- The host and what belongs to it. -/
  authority : Option Url.Authority
  /-- The path. -/
  path : Url.Path
  /-- What follows a question mark. -/
  query : Option String := none
  /-- What follows a number sign. -/
  fragment : Option String := none
  deriving DecidableEq

namespace Url

/-- The schemes that have rules for their hosts. -/
def isSpecial (scheme : String) : Bool :=
  ["http", "https", "ws", "wss", "ftp", "file"].contains scheme

/-- The port of a scheme. -/
def defaultPort? (scheme : String) : Option Nat :=
  if scheme = "http" ∨ scheme = "ws" then some 80
  else if scheme = "https" ∨ scheme = "wss" then some 443
  else if scheme = "ftp" then some 21
  else none

/-- A user and a password, and the sign after them. -/
def Authority.userText (authority : Authority) : String :=
  if authority.user = "" ∧ authority.password = "" then ""
  else authority.user ++
    (if authority.password = "" then "" else ":" ++ authority.password) ++ "@"

/-- A host and its port. -/
def Authority.hostText (authority : Authority) : String :=
  authority.host.text ++ authority.port.elim "" fun port => ":" ++ toString port

/-- A path in words. -/
def Path.text : Path → String
  | .segments above => "".intercalate (above.map ("/" ++ ·))
  | .plain text => text

/-- What stands in front of a path that would otherwise be taken for a host. -/
def pathGuard (url : Url) : String :=
  match url.authority, url.path with
  | none, .segments ("" :: _ :: _) => "/."
  | _, _ => ""

/-- A URL in words. -/
def text (url : Url) : String :=
  url.scheme ++ ":" ++
    (url.authority.elim "" fun authority => "//" ++ authority.userText ++ authority.hostText) ++
    url.pathGuard ++ url.path.text ++
    (url.query.elim "" ("?" ++ ·)) ++ (url.fragment.elim "" ("#" ++ ·))

/-- What is asked of the server for a URL: its path and its query. -/
def requestTarget (url : Url) : String :=
  url.path.text ++ url.query.elim "" ("?" ++ ·)

/-- The URL without user and password. -/
def withoutUser (url : Url) : Url :=
  { url with authority := url.authority.map fun authority =>
      { authority with user := "", password := "" } }

end Url

end SecretRenewal
