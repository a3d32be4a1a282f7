/-
This file holds the stand-ins that a loader is rehearsed with: a source of tokens and a store,
which answer as they were told to, after the delays they were told to take. What a stand-in
answers is looked up when it answers, not when it was asked.
-/
import SecretRenewal.Error
import SecretRenewal.Secret

namespace SecretRenewal.Rehearsal

/-- How a call may go wrong. -/
inductive Fault
  /-- It fails. -/
  | error (error : LoadError)
  /-- It breaks down. -/
  | breakdown (reason : String)

/-- What a call gives. -/
abbrev Answer (value : Type) := Except Fault value

/-- What the stand-ins were told. -/
structure Doubles where
  /-- The token handed out. -/
  token : String := ""
  /-- Its lease. -/
  lease : Duration := Duration.zero
  /-- How the next calls for a token go wrong, if they do. -/
  queued : List (Option Fault) := []
  /-- How calls for a token go wrong when nothing else was told. -/
  tokenFault : Option Fault := none
  /-- How many milliseconds a call for a token takes. -/
  tokenDelay : Nat := 0
  /-- How many calls for a token are answered at all. -/
  tokenLimit : Nat := 200
  /-- The secrets in the store. -/
  secrets : Entries Secret := []
  /-- How reads of a path go wrong. -/
  pathFaults : Entries Fault := []
  /-- How reads of any path go wrong. -/
  readFault : Option Fault := none
  /-- How many milliseconds a read takes. -/
  readDelay : Nat := 0

/-- Something that a stand-in is told. -/
inductive Change
  /-- Hand out this token. -/
  | token (token : String) (lease : Duration)
  /-- Keep this secret under a path. -/
  | put (path : String) (secret : Secret)
  /-- Forget the secret under a path. -/
  | remove (path : String)
  /-- Let calls for a token go wrong like this, or right again. -/
  | tokenFault (fault : Option Fault)
  /-- Let the next calls for a token go like this. -/
  | queue (faults : List (Option Fault))
  /-- Take so long for a token. -/
  | tokenDelay (millis : Nat)
  /-- Let reads of a path, or of any path, go wrong like this, or right again. -/
  | readFault (path : Option String) (fault : Option Fault)
  /-- Take so long for a read. -/
  | readDelay (millis : Nat)

namespace Doubles

/-- Tells the stand-ins something. -/
def tell (doubles : Doubles) : Change → Doubles
  | .token token lease => { doubles with token, lease }
  | .put path secret => { doubles with secrets := doubles.secrets.set path secret }
  | .remove path => { doubles with secrets := doubles.secrets.erase path }
  | .tokenFault fault => { doubles with tokenFault := fault }
  | .queue faults => { doubles with queued := doubles.queued ++ faults }
  | .tokenDelay millis => { doubles with tokenDelay := millis }
  | .readFault none fault => { doubles with readFault := fault }
  | .readFault (some path) (some fault) =>
    { doubles with pathFaults := doubles.pathFaults.set path fault }
  | .readFault (some path) none => { doubles with pathFaults := doubles.pathFaults.erase path }
  | .readDelay millis => { doubles with readDelay := millis }

/-- What a call for a token gives now. What was told for the next call counts alone. -/
def askToken (doubles : Doubles) : Answer AuthToken :=
  let fault := match doubles.queued with
    | next :: _ => next
    | [] => doubles.tokenFault
  match fault with
  | some fault => .error fault
  | none => .ok ⟨doubles.token, doubles.lease⟩

/-- The stand-ins after a call for a token was answered. -/
def tokenAsked (doubles : Doubles) : Doubles := { doubles with queued := doubles.queued.tail }

/-- What a read of a path gives now. A fault of the path comes before one of every path. -/
def read (doubles : Doubles) (path : String) : Answer Secret :=
  match doubles.pathFaults.get? path, doubles.readFault, doubles.secrets.get? path with
  | some fault, _, _ => .error fault
  | none, some fault, _ => .error fault
  | none, none, some secret => .ok secret
  | none, none, none => .error (.error (.secretNotFound path))

end Doubles

end SecretRenewal.Rehearsal
