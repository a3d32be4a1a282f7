/-
This file says which events are logged. A filter is a list of directives, each a level for the
events of some part of the program or for all of them; of those that apply to an event, the one
that names its part most closely decides. A filter without directives lets errors through. Written
down, directives stand between commas; reading them either refuses the whole for one that is
wrong, or leaves that one out.
-/
import SecretRenewal.Text.Alphanumeric
import SecretRenewal.Text.Blank
import SecretRenewal.Text.Digit
import SecretRenewal.Text.Pieces

namespace SecretRenewal.Logging

/-- How grave an event is. -/
inductive Level
  /-- Something failed. -/
  | error
  /-- Something may fail. -/
  | warn
  /-- Something worth knowing. -/
  | info
  /-- Something that helps to find faults. -/
  | debug
  /-- Every single step. -/
  | trace
  deriving DecidableEq

/-- A level in words. -/
def Level.text : Level → String
  | error => "ERROR"
  | warn => "WARN"
  | info => "INFO"
  | debug => "DEBUG"
  | trace => "TRACE"

/-- How much the events of a level add to a log: the graver, the less. -/
def Level.verbosity : Level → Nat
  | error => 1
  | warn => 2
  | info => 3
  | debug => 4
  | trace => 5

/-- A rule for the events of one part of the program, or of all parts. -/
structure Directive where
  /-- How the name of the part begins. -/
  target : Option String := none
  /-- The greatest verbosity that is let through; zero for none. -/
  verbosity : Nat
  deriving DecidableEq

/-- The directives of a filter. -/
abbrev Filter := List Directive

/-- Whether a directive is about a part of the program. -/
def Directive.appliesTo (directive : Directive) (target : String) : Bool :=
  directive.target.all fun start => start.toList.isPrefixOf target.toList

/-- How closely a directive names a part. -/
def Directive.closeness (directive : Directive) : Nat :=
  directive.target.elim 0 fun start => start.utf8ByteSize + 1

namespace Filter

/-- The directive that decides about a part: one of those that name it most closely, of these the
last. -/
def directiveFor? (filter : Filter) (target : String) : Option Directive :=
  (filter.filter (·.appliesTo target)).foldl (fun best directive =>
    match best with
    | none => some directive
    | some found => if found.closeness ≤ directive.closeness then some directive else best) none

/-- Whether a filter lets an event through. -/
def allows (filter : Filter) (target : String) (level : Level) : Bool :=
  (filter.directiveFor? target).any fun directive =>
    decide (level.verbosity ≤ directive.verbosity)

/-- What a filter without directives amounts to. -/
def orErrors (filter : Filter) : Filter :=
  if filter = [] then [{ verbosity := Level.error.verbosity }] else filter

/-! ### Reading -/

/-- The verbosity that a text names, by a word in any case or by a number up to five. -/
def verbosity? (text : List Char) : Option Nat :=
  let words := [("off", 0), ("error", 1), ("warn", 2), ("info", 3), ("debug", 4), ("trace", 5)]
  let digits := if text.head? = some '+' then text.drop 1 else text
  match words.lookup (String.ofList text).toLower with
  | some verbosity => some verbosity
  | none => if digits = [] then none else (Text.numberIn? 10 digits).filter (decide <| · ≤ 5)

/-- Whether a directive may begin with a character. -/
def mayBegin (char : Char) : Bool :=
  Text.isAlphanumeric char || char == '-' || char == ':' || char == '_'

/-- Reads one directive: a level, a target, or a target, an equals sign and a level. A target alone
lets everything through. -/
def readDirective (text : List Char) : Option Directive :=
  let start := text.takeWhile (· != '=')
  let fitting := ((text.dropWhile Text.isBlank).head?.any mayBegin) && !text.contains '['
  if !fitting then none
  else if !text.contains '=' then
    match verbosity? text with
    | some verbosity => some { verbosity }
    | none => some { target := some (String.ofList text), verbosity := Level.trace.verbosity }
  else if text.head?.any Text.isBlank then none
  else
    let level := text.drop (start.length + 1)
    let verbosity := if level = [] then some Level.trace.verbosity else verbosity? level
    verbosity.map fun verbosity => { target := some (String.ofList start), verbosity }

/-- The texts of the directives, empty ones left out. -/
def directiveTexts (text : String) : List (List Char) :=
  (Text.pieces (· == ',') text.toList).filter (· ≠ [])

/-- Reads a filter in which every directive is right. -/
def parse? (text : String) : Option Filter :=
  ((directiveTexts text).mapM readDirective).map orErrors

/-- Reads the directives that are right. -/
def parseLeniently (text : String) : Filter :=
  orErrors ((directiveTexts text).filterMap readDirective)

end Filter

end SecretRenewal.Logging
