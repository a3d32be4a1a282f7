/-
This file reads URLs. A text is first freed of what surrounds it, then cut at the characters that
end a component, and each component is put into the one form in which it is written. Dots in a
path are followed on the way; they never lead out of a drive. Tabs and line ends do not count, but
in the path of a file one may part a drive from what follows it. A reference without a scheme is
completed from a URL that is known.
-/
import SecretRenewal.Url.Basic

namespace SecretRenewal.Url

/-! ### Before the components -/

/-- The characters of a text without control characters and blanks around it. -/
def withoutEdges (text : String) : List Char :=
  let isEdge (char : Char) : Bool := decide (char ≤ ' ')
  ((text.toList.dropWhile isEdge).reverse.dropWhile isEdge).reverse

/-- Whether a character is a tab or ends a line. -/
def isGap (char : Char) : Bool := char == '\t' || char == '\n' || char == '\x0d'

/-- The characters that count. -/
def solid (chars : List Char) : List Char := chars.filter (!isGap ·)

/-- Whether a character may stand in a scheme. -/
def isSchemeChar (char : Char) : Bool :=
  char.isAlphanum || char == '+' || char == '-' || char == '.'

/-- The scheme in front of the first colon, and what follows. -/
def splitScheme? (chars : List Char) : Option (String × List Char) :=
  let mayStand (char : Char) : Bool := isSchemeChar char || isGap char
  let front := solid (chars.takeWhile mayStand)
  match front, chars.dropWhile mayStand with
  | first :: _, ':' :: rest =>
    if first.isAlpha then some (String.ofList (front.map Char.toLower), rest) else none
  | _, _ => none

/-- Whether a character separates segments. -/
def isSlash (special : Bool) (char : Char) : Bool := char == '/' || (special && char == '\\')

/-- Whether a character ends the host and what belongs to it. -/
def endsAuthority (special : Bool) (char : Char) : Bool :=
  isSlash special char || char == '?' || char == '#'

/-- Whether a character ends a path. -/
def endsPath (char : Char) : Bool := char == '?' || char == '#'

/-! ### Host, user and port -/

/-- Cuts off what stands in front of the last at sign. -/
def splitUser (chars : List Char) : Option (List Char) × List Char :=
  if chars.contains '@' then
    let afterLast := (chars.reverse.takeWhile (· != '@')).reverse
    (some (chars.take (chars.length - afterLast.length - 1)), afterLast)
  else (none, chars)

/-- Cuts a host off its port: a colon inside brackets is part of the host. -/
def splitPort (inBrackets : Bool) : List Char → List Char × Option (List Char)
  | [] => ([], none)
  | char :: rest =>
    if char = ':' ∧ !inBrackets then ([], some rest)
    else
      let (host, port) :=
        splitPort (if char = '[' then true else if char = ']' then false else inBrackets) rest
      (char :: host, port)

/-- Reads a port: digits that write no more than 65535, and then the end or a backslash. Gives what
follows as well. -/
def readPort (scheme : String) (chars : List Char) :
    Except Fault (Option Nat × List Char) :=
  let isDigit (char : Char) : Bool := (Text.digitIn? 10 char).isSome
  let digits := chars.takeWhile isDigit
  let rest := chars.dropWhile isDigit
  let port := (Text.numberIn? 10 digits).getD 0
  if 65535 < port then .error .invalidPort
  else if rest.head?.any (· != '\\') then .error .invalidPort
  else if digits = [] ∨ defaultPort? scheme = some port then .ok (none, rest)
  else .ok (some port, rest)

/-- A user and a password, cut at the first colon. -/
def readUser (chars : List Char) : String × String :=
  let user := chars.takeWhile (· != ':')
  let password := (chars.dropWhile (· != ':')).drop 1
  (escape escapedInUserInfo user, escape escapedInUserInfo password)

/-- Reads what follows two slashes, up to the path. Gives what follows as well. -/
def readAuthority [DomainNames] (scheme : String) (chars : List Char) :
    Except Fault (Authority × List Char) := do
  let special := isSpecial scheme
  let front := chars.takeWhile fun char => !endsAuthority special char
  let rest := chars.dropWhile fun char => !endsAuthority special char
  let (userChars, hostChars) := splitUser front
  if userChars = some [] ∧ hostChars = [] ∧ rest ≠ [] then .error .emptyHost
  else
    let (user, password) := readUser (userChars.getD [])
    let (name, portChars) := splitPort false hostChars
    if special ∧ name = [] then .error .emptyHost
    else
      let host ← if special then Host.parse name else Host.parsePlain name
      if host = .name "" ∧ portChars.isSome then .error .emptyHost
      else
        let (port, more) ← (portChars.elim (.ok (none, [])) (readPort scheme))
        if host = .name "" ∧ ¬(user = "" ∧ password = "") then .error .emptyHost
        else .ok (⟨user, password, host, port⟩, more ++ rest)

/-! ### Paths -/

/-- Whether a segment stands for the segment before it. -/
def isDoubleDot (segment : String) : Bool :=
  ["..", ".%2e", "%2e.", "%2e%2e"].contains segment.toLower

/-- Whether a segment stands for nothing. -/
def isSingleDot (segment : String) : Bool := [".", "%2e"].contains segment.toLower

/-- Whether a segment is a letter and a colon or a bar, which name a drive. -/
def isDrive (segment : String) : Bool :=
  match segment.toList with
  | [letter, mark] => letter.isAlpha && (mark == ':' || mark == '|')
  | _ => false

/-- The name of a drive, written with a colon. -/
def driveWithColon (segment : String) : String := String.ofList (segment.toList.take 1) ++ ":"

/-- Whether a segment begins with the name of a drive, which may end at a backslash. -/
def beginsWithDrive (segment : String) : Bool :=
  match segment.toList with
  | letter :: mark :: rest =>
    letter.isAlpha && (mark == ':' || mark == '|') && rest.head?.all (· == '\\')
  | _ => false

/-- Goes up from a path, given by its segments, the last one first. A drive stays. -/
def goUp : List String → List String
  | [] => []
  | last :: above => if beginsWithDrive last then last :: above else above

/-- The name of a drive and what follows it in a segment, where a gap parts them. -/
def partedDrive? (segment : List Char) : Option (String × String) :=
  match segment.dropWhile isGap with
  | letter :: afterLetter =>
    match afterLetter.dropWhile isGap with
    | ':' :: gap :: rest =>
      if letter.isAlpha && isGap gap && !(solid rest).isEmpty then
        some (String.ofList [letter, ':'], escape escapedInPath (solid rest))
      else none
    | _ => none
  | [] => none

/-- A path that is being followed. -/
structure Walk where
  /-- The segments so far, the last one first. -/
  path : List String
  /-- Whether the path was found to begin with a drive, which no host has. -/
  onDrive : Bool := false

/-- Goes on by one segment that is no dots. A drive at the beginning of the path of a file gets its
colon. -/
def Walk.down (scheme : String) (walk : Walk) (segment : List Char) : Walk :=
  let name := escape escapedInPath (solid segment)
  if scheme = "file" ∧ walk.path = [] then
    if isDrive name then ⟨[driveWithColon name], true⟩
    else match partedDrive? segment with
      | some (drive, rest) => { walk with path := [rest, drive] }
      | none => { walk with path := [name] }
  else { walk with path := name :: walk.path }

/-- Follows segments down from a path. A path that ends in dots ends in a slash. -/
def follow (scheme : String) : Walk → List (List Char) → Walk
  | walk, [] => walk
  | walk, segment :: rest =>
    let name := escape escapedInPath (solid segment)
    let slash (path : List String) : Walk :=
      { walk with path := if rest = [] then "" :: path else path }
    if isDoubleDot name then follow scheme (slash (goUp walk.path)) rest
    else if isSingleDot name then follow scheme (slash walk.path) rest
    else follow scheme (walk.down scheme segment) rest

/-- Follows the segments that are written in characters, without a slash in front, down from
another path. -/
def followWritten (scheme : String) (above : List String) (chars : List Char) : Walk :=
  follow scheme { path := above.reverse } (Text.pieces (isSlash (isSpecial scheme)) chars)

/-- The path of a file from its segments: several slashes in front count as one. -/
def withoutLeadingEmpty (segments : List String) : List String :=
  match segments.dropWhile (· == "") with
  | [] => [""]
  | kept => kept

/-- Reads the segments of a path, without the slash in front, down from another path. -/
def readSegments (scheme : String) (above : List String) (chars : List Char) : List String :=
  (followWritten scheme above chars).path.reverse

/-- Reads the path after a host. Where the scheme has rules for its hosts, there is always one. -/
def readPath (scheme : String) (chars : List Char) : Path :=
  let special := isSpecial scheme
  let written := chars.takeWhile fun char => !endsPath char
  match written with
  | [] => .segments (if special then [""] else [])
  | first :: rest =>
    .segments (readSegments scheme [] (if isSlash special first then rest else written))

/-- Reads the query and the fragment, which follow the path. -/
def readSuffix (scheme : String) (chars : List Char) : Option String × Option String :=
  let suffix := chars.dropWhile fun char => !endsPath char
  let query := match suffix with
    | '?' :: rest =>
      some (escape (escapedInQuery (isSpecial scheme)) (rest.takeWhile (· != '#')))
    | _ => none
  let fragment := match suffix.dropWhile (· != '#') with
    | '#' :: rest => some (escape escapedInFragment rest)
    | _ => none
  (query, fragment)

/-- A URL with the query and the fragment that stand at the end of characters. -/
def withSuffix (url : Url) (chars : List Char) : Url :=
  let (query, fragment) := readSuffix url.scheme chars
  { url with query, fragment }

/-! ### URLs -/

/-- Reads what follows a scheme and two slashes. -/
def readAfterSlashes [DomainNames] (scheme : String) (chars : List Char) : Except Fault Url := do
  let (authority, rest) ← readAuthority scheme chars
  return withSuffix ⟨scheme, some authority, readPath scheme rest, none, none⟩ rest

/-- What follows a slash, where that comes next. -/
def afterSlash? (chars : List Char) : Option (List Char) :=
  match chars.dropWhile isGap with
  | first :: rest => if isSlash true first then some rest else none
  | [] => none

/-- The URL of a file on a host, with a path that may hold gaps. A path on a drive has no host. -/
def fileAt (authority : Authority) (chars : List Char) : Url :=
  let walk := followWritten "file" [] (chars.takeWhile (!endsPath ·))
  let owner := if walk.onDrive then { host := .name "" } else authority
  let segments := withoutLeadingEmpty walk.path.reverse
  withSuffix ⟨"file", some owner, .segments segments, none, none⟩ (solid chars)

/-- Reads the URL of a file, which may hold gaps. A host of the name `localhost` is none, and a
drive is no host. The slash after a host belongs to no segment; without a host it ends an empty
one. -/
def readFile [DomainNames] (chars : List Char) : Except Fault Url := do
  let here : Authority := { host := .name "" }
  match afterSlash? chars with
  | none => return fileAt here chars
  | some afterFirst =>
    match afterSlash? afterFirst with
    | none => return fileAt here afterFirst
    | some rest =>
      let name := solid (rest.takeWhile fun char => !endsAuthority true char)
      let after := rest.dropWhile fun char => !endsAuthority true char
      if isDrive (String.ofList name) then return fileAt here rest
      else if name = [] then return fileAt here after
      else
        let host ← Host.parse name
        if host = .name "localhost" then return fileAt here after
        else return fileAt { here with host } ((afterSlash? after).getD after)

/-- Reads what follows a scheme, which may hold gaps. -/
def readAfterScheme [DomainNames] (scheme : String) (chars : List Char) : Except Fault Url :=
  if scheme = "file" then readFile chars
  else
    let chars := solid chars
    if isSpecial scheme then readAfterSlashes scheme (chars.dropWhile (isSlash true))
    else match chars with
      | '/' :: '/' :: rest => readAfterSlashes scheme rest
      | '/' :: _ => .ok (withSuffix ⟨scheme, none, readPath scheme chars, none, none⟩ chars)
      | _ =>
        let plain := chars.takeWhile fun char => !endsPath char
        .ok (withSuffix ⟨scheme, none, .plain (escape isControl plain), none, none⟩ chars)

/-- Reads a URL. -/
def parse [DomainNames] (text : String) : Except Fault Url :=
  match splitScheme? (withoutEdges text) with
  | some (scheme, rest) => readAfterScheme scheme rest
  | none => .error .relativeWithoutBase

/-- Completes a reference without a scheme of its own from a URL with a path of segments. After two
plain slashes there has to be a host; any other slashes in front of one do not count. -/
def complete [DomainNames] (base : Url) (above : List String) (chars : List Char) :
    Except Fault Url :=
  let special := isSpecial base.scheme
  match chars with
  | [] => .ok { base with fragment := none }
  | first :: rest =>
    if first = '#' then .ok { base with fragment := (readSuffix base.scheme chars).2 }
    else if first = '?' then .ok (withSuffix base chars)
    else if isSlash special first then
      match first, rest with
      | '/', '/' :: more => readAfterSlashes base.scheme more
      | _, second :: _ =>
        if isSlash special second then
          readAfterSlashes base.scheme (chars.dropWhile (isSlash special))
        else .ok (withSuffix { base with path := readPath base.scheme chars } chars)
      | _, [] => .ok (withSuffix { base with path := readPath base.scheme chars } chars)
    else
      let written := chars.takeWhile fun char => !endsPath char
      let path := Path.segments (readSegments base.scheme above.dropLast written)
      .ok (withSuffix { base with path } chars)

/-- Reads a reference, completed from a URL where it has no scheme of its own. -/
def resolve [DomainNames] (base : Url) (reference : String) : Except Fault Url :=
  let chars := withoutEdges reference
  match splitScheme? chars, base.path with
  | some (scheme, rest), .segments above =>
    let slashes := (solid rest).takeWhile (isSlash true)
    if scheme = base.scheme ∧ isSpecial scheme ∧ slashes.length < 2 then
      complete base above (solid rest)
    else readAfterScheme scheme rest
  | some (scheme, rest), .plain _ => readAfterScheme scheme rest
  | none, .segments above => complete base above (solid chars)
  | none, .plain _ =>
    let solidChars := solid chars
    if solidChars.head? = some '#' then
      .ok { base with fragment := (readSuffix base.scheme solidChars).2 }
    else .error .relativeToPlainBase

end SecretRenewal.Url
