/-
This file says what a read and a login make of a final answer that has arrived whole. Both look at
its status first and in the same way, and at its body only if the request went well. They differ in
two statuses alone: what is refused or not there is an error of its own to a read, and to a login
either means that it was rejected.
-/
import SecretRenewal.Proofs.Http.Texts
import SecretRenewal.Proofs.Server.Failures
import SecretRenewal.Proofs.Server.Requests

namespace SecretRenewal

open Http

/-! ### Whole answers -/

/-- A client with a token reads a path, and what comes of it is a final answer that is whole. -/
def ServerClient.IsAnswered [Url.DomainNames] (client : ServerClient) (network : Network)
    (path : String) (status : Nat) (encoding : Option Encoding) (bytes : List UInt8) : Prop :=
  ∃ token location, client.token = some token ∧
    (send network .get (client.settings.apiUrl path)
      (("x-vault-token", token) :: client.settings.headers) none).2 =
        .ok { status, body := some bytes, encoding, location }

/-- A service that can read its file logs in, and what comes of it is a final answer that is
whole. -/
def ServiceAccount.IsAnswered [Url.DomainNames] (account : ServiceAccount)
    (file : Option (List UInt8)) (network : Network) (status : Nat) (encoding : Option Encoding)
    (bytes : List UInt8) : Prop :=
  ∃ jwt location, account.presented file = .ok jwt ∧
    (send network .post (account.settings.apiUrl account.loginPath)
      (("content-type", "application/json") :: account.settings.headers)
      (some (account.loginBody jwt))).2 = .ok { status, body := some bytes, encoding, location }

/-- What a status and a body that reads as this stand for, where a refusal and a missing thing have
the errors given. -/
def judged {value : Type} (read : Except Json.Problem value) (denied missing : LoadError)
    (status : Nat) (encoding : Option Encoding) (bytes : List UInt8) : Except LoadError value :=
  if 200 ≤ status ∧ status < 300 then read.mapError .ofProblem
  else if status = 404 then .error missing
  else if status = 403 then .error denied
  else if status = 429 then .error .rateLimited
  else .error (.unavailable
    ("Status " ++ statusText status ++ ": " ++ textOf encoding bytes))

/-- The secret that the body of an answer holds. -/
def parsedSecret (bytes : List UInt8) : Except Json.Problem Secret :=
  (SecretReply.parse bytes).map SecretReply.secret

/-- The token that the body of an answer holds. -/
def parsedToken (bytes : List UInt8) : Except Json.Problem AuthToken :=
  (LoginReply.parse bytes).map LoginReply.authToken

section

variable {value : Type} {status : Nat} {encoding : Option Encoding} {bytes : List UInt8}
  {location : Option String} {path : String} {read : Except Json.Problem value}
  {denied missing : LoadError}

/-- Whoever goes by the status and passes on what it says judges the answer. -/
theorem judged_of_checkStatus (take : Except LoadError Received → Except LoadError value)
    (takesBody : take (.ok { status, body := some bytes, encoding, location }) =
      read.mapError .ofProblem)
    (takesDenied : take (.error (.permissionDenied path)) = .error denied)
    (takesMissing : take (.error (.secretNotFound path)) = .error missing)
    (takesLimited : take (.error .rateLimited) = .error .rateLimited)
    (takesFailed : ∀ reason, take (.error (.unavailable reason)) = .error (.unavailable reason)) :
    take (ServerClient.checkStatus { status, body := some bytes, encoding, location } path) =
      judged read denied missing status encoding bytes := by
  have success : Received.isSuccess { status, body := some bytes, encoding, location } = true ↔
      200 ≤ status ∧ status < 300 := by
    simp [Received.isSuccess]
  unfold ServerClient.checkStatus judged
  by_cases accepted : 200 ≤ status ∧ status < 300
  · rw [if_pos (success.mpr accepted), if_pos accepted]
    exact takesBody
  rw [if_neg (mt success.mp accepted), if_neg accepted]
  by_cases isMissing : status = 404
  · rw [if_pos isMissing, if_pos isMissing]
    exact takesMissing
  rw [if_neg isMissing, if_neg isMissing]
  by_cases isDenied : status = 403
  · rw [if_pos isDenied, if_pos isDenied]
    exact takesDenied
  rw [if_neg isDenied, if_neg isDenied]
  by_cases isLimited : status = 429
  · rw [if_pos isLimited, if_pos isLimited]
    exact takesLimited
  rw [if_neg isLimited, if_neg isLimited]
  exact takesFailed _

theorem judged_of_success (accepted : 200 ≤ status ∧ status < 300) :
    judged read denied missing status encoding bytes = read.mapError .ofProblem :=
  if_pos accepted

/-- Any other status is told in words, with the body as text. -/
theorem judged_of_failure (noSuccess : ¬(200 ≤ status ∧ status < 300)) (notDenied : status ≠ 403)
    (notMissing : status ≠ 404) (notLimited : status ≠ 429) :
    judged read denied missing status encoding bytes = .error (.unavailable
      ("Status " ++ statusText status ++ ": " ++ textOf encoding bytes)) := by
  unfold judged
  rw [if_neg noSuccess, if_neg notMissing, if_neg notDenied, if_neg notLimited]

/-- Only of a request that went well there is a value. -/
theorem judged_ne_ok (noSuccess : ¬(200 ≤ status ∧ status < 300)) (given : value) :
    judged read denied missing status encoding bytes ≠ .ok given := by
  unfold judged
  rw [if_neg noSuccess]
  split
  · exact nofun
  split
  · exact nofun
  split <;> exact nofun

end

/-! ### Reads -/

/-- A read goes by the status and the body alone. -/
theorem ServerClient.secretOf_eq_judged (status : Nat) (encoding : Option Encoding)
    (bytes : List UInt8) (location : Option String) (path : String) :
    secretOf { status, body := some bytes, encoding, location } path =
      judged (parsedSecret bytes) (.permissionDenied path) (.secretNotFound path)
        status encoding bytes := by
  have takesBody :
      (readBody { status, body := some bytes, encoding, location } SecretReply.parse >>=
        fun reply => Except.ok reply.secret) = (parsedSecret bytes).mapError .ofProblem := by
    unfold readBody parsedSecret
    dsimp only
    cases SecretReply.parse bytes <;> rfl
  exact judged_of_checkStatus
    (fun outcome => do
      let reply ← readBody (← outcome) SecretReply.parse
      return reply.secret)
    takesBody rfl rfl rfl fun _ => rfl

theorem ServerClient.IsAnswered.read [Url.DomainNames] {client : ServerClient}
    {network : Network} {path : String} {status : Nat} {encoding : Option Encoding}
    {bytes : List UInt8} (isAnswered : client.IsAnswered network path status encoding bytes) :
    (client.read network path).2 =
      judged (parsedSecret bytes) (.permissionDenied path) (.secretNotFound path)
        status encoding bytes := by
  obtain ⟨token, location, holds, received⟩ := isAnswered
  unfold ServerClient.read
  simp only [holds]
  generalize send network .get _ _ none = sent at received
  obtain ⟨after, outcome⟩ := sent
  cases received
  exact secretOf_eq_judged status encoding bytes location path

/-! ### Logins -/

/-- So does a login, to which a refusal and a missing thing are the same. -/
theorem ServiceAccount.tokenOf_eq_judged (account : ServiceAccount) (status : Nat)
    (encoding : Option Encoding) (bytes : List UInt8) (location : Option String) :
    account.tokenOf { status, body := some bytes, encoding, location } =
      judged (parsedToken bytes) account.rejection account.rejection status encoding bytes := by
  have takesBody : account.tokenIn (.ok { status, body := some bytes, encoding, location }) =
      (parsedToken bytes).mapError .ofProblem := by
    unfold tokenIn ServerClient.readBody parsedToken
    dsimp only
    cases LoginReply.parse bytes <;> rfl
  rw [tokenOf_eq]
  exact judged_of_checkStatus account.tokenIn takesBody rfl rfl rfl fun _ => rfl

theorem ServiceAccount.IsAnswered.token [Url.DomainNames] {account : ServiceAccount}
    {file : Option (List UInt8)} {network : Network} {status : Nat}
    {encoding : Option Encoding} {bytes : List UInt8}
    (isAnswered : account.IsAnswered file network status encoding bytes) :
    (account.token file network).2 =
      judged (parsedToken bytes) account.rejection account.rejection status encoding bytes := by
  obtain ⟨jwt, location, presents, received⟩ := isAnswered
  unfold ServiceAccount.token
  simp only [presents]
  generalize send network .post _ _ _ = sent at received
  obtain ⟨after, outcome⟩ := sent
  cases received
  exact account.tokenOf_eq_judged status encoding bytes location

/-- An error that speaks of no path. -/
def LoadError.NamesNoPath (error : LoadError) : Prop :=
  ∀ path, error ≠ .permissionDenied path ∧ error ≠ .secretNotFound path

theorem ServerClient.namesNoPath_of_readBody {value : Type} {received : Received}
    {parse : List UInt8 → Except Json.Problem value} {error : LoadError}
    (told : readBody received parse = .error error) : error.NamesNoPath := by
  unfold readBody at told
  split at told
  · cases told
    exact fun path => ⟨nofun, nofun⟩
  · split at told
    · cases told
      exact fun path => ⟨nofun, nofun⟩
    · cases told

theorem ServiceAccount.namesNoPath_of_tokenOf {account : ServiceAccount} {received : Received}
    {error : LoadError} (told : account.tokenOf received = .error error) : error.NamesNoPath := by
  have statusCase := ServerClient.checkStatus_cases received account.loginPath
  rw [tokenOf_eq] at told
  generalize ServerClient.checkStatus received account.loginPath = outcome at statusCase told
  cases statusCase with
  | success accepted =>
    unfold tokenIn at told
    dsimp only at told
    split at told
    · next problem unread =>
      cases told
      exact ServerClient.namesNoPath_of_readBody unread
    · cases told
  | missing | denied | limited | failed =>
    cases told
    exact fun path => ⟨nofun, nofun⟩

theorem ServiceAccount.namesNoPath_of_presented {account : ServiceAccount}
    {file : Option (List UInt8)} {error : LoadError}
    (told : account.presented file = .error error) : error.NamesNoPath := by
  unfold presented at told
  dsimp only at told
  split at told
  · cases told
    exact fun path => ⟨nofun, nofun⟩
  · split at told
    · cases told
      exact fun path => ⟨nofun, nofun⟩
    · cases told

/-- Whatever comes of it, a login speaks of no path. -/
theorem ServiceAccount.namesNoPath_of_token [Url.DomainNames] {account : ServiceAccount}
    {file : Option (List UInt8)} {network : Network} {error : LoadError}
    (told : (account.token file network).2 = .error error) : error.NamesNoPath := by
  unfold token at told
  split at told
  · next unread =>
    cases told
    exact namesNoPath_of_presented unread
  · split at told
    · cases told
      exact fun path => ⟨nofun, nofun⟩
    · exact namesNoPath_of_tokenOf told

/-! ### Reads and logins -/

/-- What comes of a read and of a login whose final answers have this status, this encoding, and
these bytes. -/
structure AnsweredAlike (account : ServiceAccount) (path : String) (status : Nat)
    (encoding : Option Encoding) (bytes : List UInt8) (read : Except LoadError Secret)
    (login : Except LoadError AuthToken) : Prop where
  success : 200 ≤ status ∧ status < 300 →
    read = (parsedSecret bytes).mapError .ofProblem ∧
      login = (parsedToken bytes).mapError .ofProblem
  limited : status = 429 → read = .error .rateLimited ∧ login = .error .rateLimited
  failure : ¬(200 ≤ status ∧ status < 300) → status ≠ 403 → status ≠ 404 → status ≠ 429 →
    ∃ phrase text reason, IsPhrase status phrase ∧ IsTextOf encoding bytes text ∧
      reason = "Status " ++ toString status ++ " " ++ phrase ++ ": " ++ text ∧
      read = .error (.unavailable reason) ∧ login = .error (.unavailable reason)
  denied : status = 403 → read = .error (.permissionDenied path) ∧ login = .error account.rejection
  missing : status = 404 → read = .error (.secretNotFound path) ∧ login = .error account.rejection
  noValue : ¬(200 ≤ status ∧ status < 300) →
    (∀ secret, read ≠ .ok secret) ∧ ∀ token, login ≠ .ok token

theorem answeredAlike_of_judged {account : ServiceAccount} {path : String} {status : Nat}
    {encoding : Option Encoding} {bytes : List UInt8} {read : Except LoadError Secret}
    {login : Except LoadError AuthToken}
    (isRead : read = judged (parsedSecret bytes) (.permissionDenied path) (.secretNotFound path)
      status encoding bytes)
    (isLogin : login = judged (parsedToken bytes) account.rejection account.rejection
      status encoding bytes) :
    AnsweredAlike account path status encoding bytes read login := by
  subst isRead isLogin
  refine ⟨?_, ?_, ?_, ?_, ?_, ?_⟩
  · exact fun accepted => ⟨judged_of_success accepted, judged_of_success accepted⟩
  · rintro rfl
    exact ⟨rfl, rfl⟩
  · intro noSuccess notDenied notMissing notLimited
    obtain ⟨phrase, isPhrase, inWords⟩ := exists_isPhrase status
    refine ⟨phrase, textOf encoding bytes, "Status " ++ statusText status ++ ": " ++
      textOf encoding bytes, isPhrase, isTextOf_iff.mpr rfl, ?_,
      judged_of_failure noSuccess notDenied notMissing notLimited,
      judged_of_failure noSuccess notDenied notMissing notLimited⟩
    rw [inWords]
    simp only [String.append_assoc]
  · rintro rfl
    exact ⟨rfl, rfl⟩
  · rintro rfl
    exact ⟨rfl, rfl⟩
  · exact fun noSuccess => ⟨judged_ne_ok noSuccess, judged_ne_ok noSuccess⟩

/-- A read and a login whose final answers arrive whole go by the status in the same way, up to what
they say where it is 403 or 404. No login ever speaks of a path. However a loader uses the client,
it holds the token that it was handed last, and no step of a read changes that. -/
theorem answers_are_taken_alike [Url.DomainNames] {client : ServerClient}
    {account : ServiceAccount} {path : String} {file : Option (List UInt8)}
    {readNetwork loginNetwork : Network} {status : Nat} {encoding : Option Encoding}
    {bytes : List UInt8} (isRead : client.IsAnswered readNetwork path status encoding bytes)
    (isLogin : account.IsAnswered file loginNetwork status encoding bytes) :
    AnsweredAlike account path status encoding bytes (client.read readNetwork path).2
      (account.token file loginNetwork).2 ∧
    (∀ file network error, (account.token file network).2 = .error error → error.NamesNoPath) ∧
    ∀ {sink : Type} [ConfigSink sink] (settings : LoaderSettings)
      (sinks : Loader.Target → sink) (happenings : List Loader.Happening)
      (connected : Loader.Connected sink),
      (Loader.Connected.start settings sinks client).run? happenings = some connected →
      connected.client = { client with token := connected.loader.storeToken.or client.token } ∧
      ∀ happening next, connected.step? happening = some next →
        (∀ party, happening ≠ .acts (.tokenTaken party)) → next.client = connected.client := by
  refine ⟨answeredAlike_of_judged isRead.read isLogin.token,
    fun file network error told => ServiceAccount.namesNoPath_of_token told, ?_⟩
  intro sink _ settings sinks happenings connected run
  refine ⟨(Loader.presents_of_run run).holds, fun happening next step other => ?_⟩
  exact (Loader.Flow.of_step? step).client_eq other

attribute [local instance] Url.asciiNames

/-- A network whose servers give one answer and then nothing. -/
def answering (status : Nat) (bytes : List UInt8) : Network where
  reaches := fun _ => true
  responses := [{ status, body := bytes }]

theorem isAnswered_of_seen {result : Except Failure Received} {status : Nat} {bytes : List UInt8}
    (seen : result.toOption.map (fun received =>
        (received.status, received.body, received.encoding.isNone, received.location)) =
      some (status, some bytes, true, none)) :
    result = .ok { status, body := some bytes, encoding := none, location := none } := by
  obtain ⟨⟨status, body, encoding, location⟩, isOk, same⟩ := Option.map_eq_some_iff.mp seen
  cases encoding with
  | none =>
    cases same
    exact toOption_eq_some_iff.mp isOk
  | some encoding => cases same

theorem read_isAnswered :
    readyClient.IsAnswered (answering 404 [123, 125]) "a" 404 none [123, 125] :=
  ⟨"t", none, rfl, isAnswered_of_seen (by decide +kernel)⟩

theorem login_isAnswered :
    readyAccount.IsAnswered (some [116]) (answering 404 [123, 125]) 404 none [123, 125] :=
  ⟨"t", none, rfl, isAnswered_of_seen (by decide +kernel)⟩

/-- What is not there is not there for a read, and a login is rejected. -/
theorem answers_are_taken_alike_of_missing :
    readyClient.IsAnswered (answering 404 [123, 125]) "a" 404 none [123, 125] ∧
      readyAccount.IsAnswered (some [116]) (answering 404 [123, 125]) 404 none [123, 125] ∧
      (readyClient.read (answering 404 [123, 125]) "a").2 = .error (.secretNotFound "a") ∧
      (readyAccount.token (some [116]) (answering 404 [123, 125])).2 =
        .error readyAccount.rejection :=
  ⟨read_isAnswered, login_isAnswered,
    (answers_are_taken_alike read_isAnswered login_isAnswered).1.missing rfl⟩

end SecretRenewal
