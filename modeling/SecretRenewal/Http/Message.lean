/-
This file holds the messages that a client and a server exchange: what is asked, and what comes
back. An answer may break off in its body or not come at all, and a client has to tell these
apart. A status is written as its number and the phrase that goes with it. A body that is wanted as
text is read in the encoding that the type of the answer names, unless a mark at its beginning says
otherwise; all encodings but UTF-8 are taken from outside.
-/
import SecretRenewal.Json.Value
import SecretRenewal.Text.Marked
import SecretRenewal.Url.Basic

namespace SecretRenewal.Http

/-- What a request wants. -/
inductive Method
  /-- To be given something. -/
  | get
  /-- To hand something in. -/
  | post
  deriving DecidableEq

/-- A method in words. -/
def Method.text : Method → String
  | get => "GET"
  | post => "POST"

/-- A request. -/
structure Request where
  /-- What it wants. -/
  method : Method
  /-- Where it goes. -/
  url : Url
  /-- Names and values of its headers. -/
  headers : List (String × String)
  /-- What it hands in. -/
  body : Option Json := none

/-- What becomes of an answer on its way. -/
inductive Ending
  /-- It arrives. -/
  | whole
  /-- It breaks off in its body. -/
  | brokenOff
  /-- The connection ends before it. -/
  | closed
  /-- It does not come in time. -/
  | late
  deriving DecidableEq

/-- An encoding of text other than UTF-8. -/
structure Encoding where
  /-- The text that bytes without a mark are. -/
  decode : List UInt8 → String

/-- An answer as a server gives it. -/
structure Response where
  /-- How the request went. -/
  status : Nat := 200
  /-- What is given. -/
  body : List UInt8 := []
  /-- The encoding that its type names, if that is a known one other than UTF-8. -/
  encoding : Option Encoding := none
  /-- Where to ask instead. -/
  location : Option String := none
  /-- What becomes of it. -/
  ending : Ending := .whole

/-- An answer as it arrived. -/
structure Received where
  /-- How the request went. -/
  status : Nat
  /-- What was given, unless that broke off. -/
  body : Option (List UInt8)
  /-- The encoding that its type names, if that is a known one other than UTF-8. -/
  encoding : Option Encoding := none
  /-- Where to ask instead. -/
  location : Option String := none

/-- An answer as it arrives, if it does. -/
def Response.received? (response : Response) : Option Received :=
  match response.ending with
  | .whole =>
    some ⟨response.status, some response.body, response.encoding, response.location⟩
  | .brokenOff => some ⟨response.status, none, response.encoding, response.location⟩
  | .closed => none
  | .late => none

/-- Whether a request went well. -/
def Received.isSuccess (received : Received) : Bool :=
  decide (200 ≤ received.status) && decide (received.status < 300)

/-- Bytes as text, in UTF-8 where no other encoding is named. -/
def textOf (encoding : Option Encoding) (bytes : List UInt8) : String :=
  Text.decodeMarked (encoding.elim Text.decodeReplacing Encoding.decode) bytes

/-- What was given, as text; nothing if it broke off. -/
def Received.bodyText (received : Received) : String :=
  received.body.elim "" (textOf received.encoding)

/-- The phrases that go with the statuses. -/
def phrases : List (Nat × String) :=
  [(100, "Continue"), (101, "Switching Protocols"), (102, "Processing"), (200, "OK"),
    (201, "Created"), (202, "Accepted"), (203, "Non Authoritative Information"),
    (204, "No Content"), (205, "Reset Content"), (206, "Partial Content"),
    (207, "Multi-Status"), (208, "Already Reported"), (226, "IM Used"),
    (300, "Multiple Choices"), (301, "Moved Permanently"), (302, "Found"), (303, "See Other"),
    (304, "Not Modified"), (305, "Use Proxy"), (307, "Temporary Redirect"),
    (308, "Permanent Redirect"), (400, "Bad Request"), (401, "Unauthorized"),
    (402, "Payment Required"), (403, "Forbidden"), (404, "Not Found"),
    (405, "Method Not Allowed"), (406, "Not Acceptable"),
    (407, "Proxy Authentication Required"), (408, "Request Timeout"), (409, "Conflict"),
    (410, "Gone"), (411, "Length Required"), (412, "Precondition Failed"),
    (413, "Payload Too Large"), (414, "URI Too Long"), (415, "Unsupported Media Type"),
    (416, "Range Not Satisfiable"), (417, "Expectation Failed"), (418, "I'm a teapot"),
    (421, "Misdirected Request"), (422, "Unprocessable Entity"), (423, "Locked"),
    (424, "Failed Dependency"), (425, "Too Early"), (426, "Upgrade Required"),
    (428, "Precondition Required"), (429, "Too Many Requests"),
    (431, "Request Header Fields Too Large"), (451, "Unavailable For Legal Reasons"),
    (500, "Internal Server Error"), (501, "Not Implemented"), (502, "Bad Gateway"),
    (503, "Service Unavailable"), (504, "Gateway Timeout"), (505, "HTTP Version Not Supported"),
    (506, "Variant Also Negotiates"), (507, "Insufficient Storage"), (508, "Loop Detected"),
    (510, "Not Extended"), (511, "Network Authentication Required")]

/-- A status in words. -/
def statusText (status : Nat) : String :=
  toString status ++ " " ++ (phrases.lookup status).getD "<unknown status code>"

end SecretRenewal.Http
