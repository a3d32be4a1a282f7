/-
This file says which error a client gives when the transport fails under a request: before an
answer begins, or in the body of one. An answer that leads elsewhere is followed without a look at
its body, so the failure that counts is the one under the last request. A body is opened only where
the status says that the request went well, or where its text goes into an error; in the second case
a body that breaks off leaves that text empty, and in the first the failure is told as it is.
-/
import SecretRenewal.Auth.ServiceAccount
import SecretRenewal.Proofs.Results
import SecretRenewal.Proofs.Url.Names

namespace SecretRenewal

/-! ### Where the transport fails -/

namespace Http

/-- How far a request had got when the transport failed. -/
inductive Breakage
  /-- There was no connection, or no answer on it, or none in time. -/
  | beforeAnswer
  /-- The body of an answer with this status broke off. -/
  | inBody (status : Nat)

/-- What the server gives next. -/
def Network.next (network : Network) : Response := network.responses.head?.getD exhausted

/-- The network once a request has got through. -/
def Network.after (network : Network) (request : Request) : Network :=
  { network with responses := network.responses.tail, requests := network.requests ++ [request] }

/-- The transport fails under a request, or under one that its answers lead to. -/
inductive Breaks [Url.DomainNames] : (remaining : Nat) → Network → Request → Breakage → Prop
  | unreached {remaining : Nat} {network : Network} {request : Request}
      (cut : network.reaches request.url = false) :
      Breaks remaining network request .beforeAnswer
  | unanswered {remaining : Nat} {network : Network} {request : Request}
      (reached : network.reaches request.url = true)
      (missing : network.next.ending = .closed ∨ network.next.ending = .late) :
      Breaks remaining network request .beforeAnswer
  | inBody {remaining : Nat} {network : Network} {request : Request} {received : Received}
      (reached : network.reaches request.url = true)
      (broken : network.next.ending = .brokenOff)
      (head : network.next.received? = some received) (last : nextUrl? request received = none) :
      Breaks remaining network request (.inBody network.next.status)
  | later {remaining : Nat} {network : Network} {request : Request} {received : Received}
      {url : Url} {breakage : Breakage} (reached : network.reaches request.url = true)
      (head : network.next.received? = some received)
      (leads : nextUrl? request received = some url)
      (breaks : Breaks remaining (network.after request) (redirected request received url)
        breakage) :
      Breaks (remaining + 1) network request breakage

/-- The transport fails under a request that is given by its parts and can be sent. -/
def SendBreaks [Url.DomainNames] (network : Network) (method : Method) (address : String)
    (headers : List (String × String)) (body : Option Json) (breakage : Breakage) : Prop :=
  ∃ url : Url, Url.parse address = .ok url ∧ headers.all (fun header => isHeaderValue header.2) ∧
    isAddress url.withoutUser ∧
    Breaks redirectLimit network { method, url := url.withoutUser, headers, body } breakage

/-! ### What is left of an answer -/

/-- What a sender is left with: nothing, or an answer without its body. -/
inductive Leaves : Breakage → Except Failure Received → Prop
  | nothing (url : Url) : Leaves .beforeAnswer (.error (.sending url))
  | head (status : Nat) (encoding : Option Encoding) (location : Option String) :
      Leaves (.inBody status) (.ok { status, body := none, encoding, location })

section

variable {network : Network} {request : Request}

/-- Nothing comes back from a server that is out of reach, and nothing gets there. -/
theorem Network.exchange_of_unreached (cut : network.reaches request.url = false) :
    network.exchange request = (network, none) := by
  unfold Network.exchange
  rw [cut]
  rfl

theorem Network.exchange_of_reached (reached : network.reaches request.url = true) :
    network.exchange request = (network.after request, network.next.received?) := by
  unfold Network.exchange
  rw [reached]
  rfl

theorem Response.received?_of_missing {response : Response}
    (missing : response.ending = .closed ∨ response.ending = .late) :
    response.received? = none := by
  unfold Response.received?
  rcases missing with closed | late
  · rw [closed]
  · rw [late]

/-- Of an answer that breaks off everything but the body is received. -/
theorem Response.received?_of_broken {response : Response} (broken : response.ending = .brokenOff) :
    response.received? = some ⟨response.status, none, response.encoding, response.location⟩ := by
  unfold Response.received?
  rw [broken]

/-- Without an answer the request is what failed. -/
theorem follow_of_unanswered [Url.DomainNames] {after : Network} (remaining : Nat)
    (exchanged : network.exchange request = (after, none)) :
    (follow remaining network request).2 = .error (.sending request.url) := by
  cases remaining <;> (unfold follow; rw [exchanged])

theorem follow_of_last [Url.DomainNames] {after : Network} {received : Received} (remaining : Nat)
    (exchanged : network.exchange request = (after, some received))
    (last : nextUrl? request received = none) :
    (follow remaining network request).2 = .ok received := by
  cases remaining <;> (unfold follow; rw [exchanged]; simp only [last])

/-- An answer that leads elsewhere is followed there. -/
theorem follow_of_leads [Url.DomainNames] {after : Network} {received : Received} {url : Url}
    (remaining : Nat) (exchanged : network.exchange request = (after, some received))
    (leads : nextUrl? request received = some url) :
    follow (remaining + 1) network request =
      follow remaining after (redirected request received url) := by
  rw [follow.eq_def]
  simp only [exchanged, leads]

end

/-- Whatever breaks on the way from address to address, the request leaves what that comes to. -/
theorem Breaks.leaves [Url.DomainNames] {remaining : Nat} {network : Network} {request : Request}
    {breakage : Breakage} (breaks : Breaks remaining network request breakage) :
    Leaves breakage (follow remaining network request).2 := by
  induction breaks with
  | @unreached remaining network request cut =>
    rw [follow_of_unanswered remaining (Network.exchange_of_unreached cut)]
    exact .nothing request.url
  | @unanswered remaining network request reached missing =>
    have exchanged := Network.exchange_of_reached reached
    rw [Response.received?_of_missing missing] at exchanged
    rw [follow_of_unanswered remaining exchanged]
    exact .nothing request.url
  | @inBody remaining network request received reached broken head last =>
    have exchanged := Network.exchange_of_reached reached
    rw [head] at exchanged
    rw [follow_of_last remaining exchanged last]
    rw [Response.received?_of_broken broken] at head
    cases head
    exact .head _ _ _
  | @later remaining network request received url breakage reached head leads _
      inductionHypothesis =>
    have exchanged := Network.exchange_of_reached reached
    rw [head] at exchanged
    rw [follow_of_leads remaining exchanged leads]
    exact inductionHypothesis

theorem SendBreaks.leaves [Url.DomainNames] {network : Network} {method : Method} {address : String}
    {headers : List (String × String)} {body : Option Json} {breakage : Breakage}
    (breaks : SendBreaks network method address headers body breakage) :
    Leaves breakage (send network method address headers body).2 := by
  obtain ⟨url, parsed, values, asked, breaks⟩ := breaks
  have sendable : headers.any (fun header => !isHeaderValue header.2) = false := by
    rw [List.any_eq_false]
    intro header member
    simpa using List.all_eq_true.mp values header member
  unfold send
  rw [parsed]
  simp only [sendable, asked]
  exact breaks.leaves

end Http

open Http

/-! ### What is told of it -/

/-- An error tells of a breakage: by the status of an answer that has one of its own, by saying that
an answer to a request that went well did not arrive whole, and else by saying that the server is
not available. -/
structure LoadError.TellsOf (error denied missing : LoadError) (breakage : Breakage) : Prop where
  noForm : ∀ problem, error ≠ .malformed problem
  ofAnswer : ∀ status, breakage = .inBody status →
    (200 ≤ status ∧ status < 300 → error = .transfer brokenOffMessage) ∧
      (status = 403 → error = denied) ∧ (status = 404 → error = missing) ∧
      (status = 429 → error = .rateLimited)
  unavailable : (∀ status, breakage = .inBody status →
    ¬(200 ≤ status ∧ status < 300) ∧ status ≠ 403 ∧ status ≠ 404 ∧ status ≠ 429) →
      ∃ reason, error = .unavailable reason

namespace LoadError.TellsOf

variable {denied missing : LoadError}

/-- Whatever happens before there is an answer means that the server is unavailable. -/
theorem beforeAnswer (reason : String) :
    (LoadError.unavailable reason).TellsOf denied missing .beforeAnswer where
  noForm := nofun
  ofAnswer := nofun
  unavailable := fun _ => ⟨reason, rfl⟩

/-- A body that breaks off under a good status is told as a broken transfer. -/
theorem accepted {status : Nat} (success : 200 ≤ status ∧ status < 300) :
    (LoadError.transfer brokenOffMessage).TellsOf denied missing (.inBody status) where
  noForm := nofun
  ofAnswer := by
    rintro _ ⟨⟩
    exact ⟨fun _ => rfl, by omega, by omega, by omega⟩
  unavailable := fun other => absurd success (other status rfl).1

theorem forbidden (formed : ∀ problem, denied ≠ .malformed problem) :
    denied.TellsOf denied missing (.inBody 403) where
  noForm := formed
  ofAnswer := by
    rintro _ ⟨⟩
    exact ⟨by omega, fun _ => rfl, by omega, by omega⟩
  unavailable := fun other => absurd rfl (other 403 rfl).2.1

theorem notThere (formed : ∀ problem, missing ≠ .malformed problem) :
    missing.TellsOf denied missing (.inBody 404) where
  noForm := formed
  ofAnswer := by
    rintro _ ⟨⟩
    exact ⟨by omega, by omega, fun _ => rfl, by omega⟩
  unavailable := fun other => absurd rfl (other 404 rfl).2.2.1

theorem slowedDown : LoadError.rateLimited.TellsOf denied missing (.inBody 429) where
  noForm := nofun
  ofAnswer := by
    rintro _ ⟨⟩
    exact ⟨by omega, by omega, by omega, fun _ => rfl⟩
  unavailable := fun other => absurd rfl (other 429 rfl).2.2.2

/-- Any other status means that the server is unavailable. -/
theorem other {status : Nat} (reason : String) (noSuccess : ¬(200 ≤ status ∧ status < 300))
    (notForbidden : status ≠ 403) (notMissing : status ≠ 404) (notSlowed : status ≠ 429) :
    (LoadError.unavailable reason).TellsOf denied missing (.inBody status) where
  noForm := nofun
  ofAnswer := by
    rintro _ ⟨⟩
    exact ⟨fun success => absurd success noSuccess, fun same => absurd same notForbidden,
      fun same => absurd same notMissing, fun same => absurd same notSlowed⟩
  unavailable := fun _ => ⟨reason, rfl⟩

end LoadError.TellsOf

/-- The statuses of an answer as a client tells them apart. -/
inductive ServerClient.StatusCase (received : Received) (path : String) :
    Except LoadError Received → Prop
  | success (accepted : 200 ≤ received.status ∧ received.status < 300) :
      StatusCase received path (.ok received)
  | missing (status : received.status = 404) :
      StatusCase received path (.error (.secretNotFound path))
  | denied (status : received.status = 403) :
      StatusCase received path (.error (.permissionDenied path))
  | limited (status : received.status = 429) : StatusCase received path (.error .rateLimited)
  | failed (reason : String) (noSuccess : ¬(200 ≤ received.status ∧ received.status < 300))
      (notDenied : received.status ≠ 403) (notMissing : received.status ≠ 404)
      (notLimited : received.status ≠ 429) :
      StatusCase received path (.error (.unavailable reason))

/-- Every status falls into one of five cases. -/
theorem ServerClient.checkStatus_cases (received : Received) (path : String) :
    StatusCase received path (checkStatus received path) := by
  have success : received.isSuccess = true ↔ 200 ≤ received.status ∧ received.status < 300 := by
    simp [Received.isSuccess]
  unfold checkStatus
  by_cases accepted : received.isSuccess = true
  · rw [if_pos accepted]
    exact .success (success.mp accepted)
  rw [if_neg accepted]
  by_cases missing : received.status = 404
  · rw [if_pos missing]
    exact .missing missing
  rw [if_neg missing]
  by_cases denied : received.status = 403
  · rw [if_pos denied]
    exact .denied denied
  rw [if_neg denied]
  by_cases limited : received.status = 429
  · rw [if_pos limited]
    exact .limited limited
  rw [if_neg limited]
  exact .failed _ (mt success.mpr accepted) denied missing limited

/-- Whoever goes by the status and would open the body only of an answer that went well tells of
the breakage by which that body is missing. -/
theorem ServerClient.StatusCase.tells {value : Type} {received : Received} {path : String}
    {outcome : Except LoadError Received} (statusCase : StatusCase received path outcome)
    (take : Except LoadError Received → Except LoadError value) {denied missing : LoadError}
    (takesBody : take (.ok received) = .error (.transfer brokenOffMessage))
    (takesDenied : take (.error (.permissionDenied path)) = .error denied)
    (takesMissing : take (.error (.secretNotFound path)) = .error missing)
    (takesLimited : take (.error .rateLimited) = .error .rateLimited)
    (takesFailed : ∀ reason, take (.error (.unavailable reason)) = .error (.unavailable reason))
    (deniedFormed : ∀ problem, denied ≠ .malformed problem)
    (missingFormed : ∀ problem, missing ≠ .malformed problem) :
    ∃ error, take outcome = .error error ∧
      error.TellsOf denied missing (.inBody received.status) := by
  cases statusCase with
  | success accepted => exact ⟨_, takesBody, .accepted accepted⟩
  | missing isMissing =>
    rw [isMissing]
    exact ⟨_, takesMissing, .notThere missingFormed⟩
  | denied isDenied =>
    rw [isDenied]
    exact ⟨_, takesDenied, .forbidden deniedFormed⟩
  | limited isLimited =>
    rw [isLimited]
    exact ⟨_, takesLimited, .slowedDown⟩
  | failed reason noSuccess notDenied notMissing notLimited =>
    exact ⟨_, takesFailed reason, .other reason noSuccess notDenied notMissing notLimited⟩

theorem ServerClient.secretOf_of_broken (status : Nat) (encoding : Option Encoding)
    (location : Option String) (path : String) :
    ∃ error, secretOf { status, body := none, encoding, location } path = .error error ∧
      error.TellsOf (.permissionDenied path) (.secretNotFound path) (.inBody status) := by
  have statusCase := checkStatus_cases { status, body := none, encoding, location } path
  unfold secretOf
  generalize checkStatus _ path = outcome at statusCase
  exact statusCase.tells
    (fun outcome => do
      let reply ← readBody (← outcome) SecretReply.parse
      return reply.secret)
    rfl rfl rfl rfl (fun _ => rfl) nofun nofun

/-- What a login tells when it is refused. -/
def ServiceAccount.rejection (account : ServiceAccount) : LoadError :=
  .authenticationFailed ("login rejected for role " ++ account.settings.role)

/-- The token in an answer to a login, once its status has been looked at. -/
def ServiceAccount.tokenIn (account : ServiceAccount) :
    Except LoadError Received → Except LoadError AuthToken
  | .error (.permissionDenied _) | .error (.secretNotFound _) => .error account.rejection
  | .error error => .error error
  | .ok received =>
    match ServerClient.readBody received LoginReply.parse with
    | .error error => .error error
    | .ok reply => .ok reply.authToken

/-- A login goes by the status as a read does. -/
theorem ServiceAccount.tokenOf_eq (account : ServiceAccount) (received : Received) :
    account.tokenOf received =
      account.tokenIn (ServerClient.checkStatus received account.loginPath) := rfl

theorem ServiceAccount.tokenOf_of_broken (account : ServiceAccount) (status : Nat)
    (encoding : Option Encoding) (location : Option String) :
    ∃ error, account.tokenOf { status, body := none, encoding, location } = .error error ∧
      error.TellsOf account.rejection account.rejection (.inBody status) := by
  have statusCase :=
    ServerClient.checkStatus_cases { status, body := none, encoding, location } account.loginPath
  rw [tokenOf_eq]
  generalize ServerClient.checkStatus _ account.loginPath = outcome at statusCase
  exact statusCase.tells account.tokenIn rfl rfl rfl rfl (fun _ => rfl) nofun nofun

/-! ### Reads and logins -/

/-- The transport fails under a read. -/
def ServerClient.ReadBreaks [Url.DomainNames] (client : ServerClient) (network : Network)
    (path : String) (breakage : Breakage) : Prop :=
  ∃ token, client.token = some token ∧
    SendBreaks network .get (client.settings.apiUrl path)
      (("x-vault-token", token) :: client.settings.headers) none breakage

/-- The transport fails under a login. -/
def ServiceAccount.LoginBreaks [Url.DomainNames] (account : ServiceAccount)
    (file : Option (List UInt8)) (network : Network) (breakage : Breakage) : Prop :=
  ∃ jwt, account.presented file = .ok jwt ∧
    SendBreaks network .post (account.settings.apiUrl account.loginPath)
      (("content-type", "application/json") :: account.settings.headers)
      (some (account.loginBody jwt)) breakage

theorem ServerClient.ReadBreaks.told [Url.DomainNames] {client : ServerClient} {network : Network}
    {path : String} {breakage : Breakage} (breaks : client.ReadBreaks network path breakage) :
    ∃ error, (client.read network path).2 = .error error ∧
      error.TellsOf (.permissionDenied path) (.secretNotFound path) breakage := by
  obtain ⟨token, holds, breaks⟩ := breaks
  have left := breaks.leaves
  unfold ServerClient.read
  simp only [holds]
  generalize send network .get _ _ none = sent at left
  obtain ⟨after, outcome⟩ := sent
  cases left with
  | nothing url => exact ⟨_, rfl, .beforeAnswer _⟩
  | head status encoding location =>
    exact ServerClient.secretOf_of_broken status encoding location path

theorem ServiceAccount.LoginBreaks.told [Url.DomainNames] {account : ServiceAccount}
    {file : Option (List UInt8)} {network : Network} {breakage : Breakage}
    (breaks : account.LoginBreaks file network breakage) :
    ∃ error, (account.token file network).2 = .error error ∧
      error.TellsOf account.rejection account.rejection breakage := by
  obtain ⟨jwt, presents, breaks⟩ := breaks
  have left := breaks.leaves
  unfold ServiceAccount.token
  simp only [presents]
  generalize send network .post _ _ _ = sent at left
  obtain ⟨after, outcome⟩ := sent
  cases left with
  | nothing url => exact ⟨_, rfl, .beforeAnswer _⟩
  | head status encoding location => exact account.tokenOf_of_broken status encoding location

/-- However the transport fails under a read or a login, there is an error and it does not speak of
the form of the answer. It says that the server is not available, unless the status of the answer
whose body broke off has an error of its own or says that the request went well. -/
theorem breakages_are_told [Url.DomainNames] (client : ServerClient) (account : ServiceAccount)
    (path : String) (file : Option (List UInt8)) (network : Network) (breakage : Breakage) :
    (client.ReadBreaks network path breakage →
      ∃ error, (client.read network path).2 = .error error ∧
        error.TellsOf (.permissionDenied path) (.secretNotFound path) breakage) ∧
    (account.LoginBreaks file network breakage →
      ∃ error, (account.token file network).2 = .error error ∧
        error.TellsOf account.rejection account.rejection breakage) :=
  ⟨fun breaks => breaks.told, fun breaks => breaks.told⟩

attribute [local instance] Url.asciiNames

/-- A client of a server by the name of v, with a token. -/
def readyClient : ServerClient where
  settings.address :=
    { scheme := "http", authority := some { host := .name "v" }, path := .segments [""] }
  token := some "t"

/-- A network on which the first answer leads on, and the body of the next one breaks off. -/
def breakingOff (status : Nat) : Network where
  reaches := fun _ => true
  responses := [{ status := 307, location := some "http://w/" }, { status, ending := .brokenOff }]

theorem readBreaks_breakingOff (status : Nat) :
    readyClient.ReadBreaks (breakingOff status) "a" (.inBody status) := by
  have parsed : (Url.parse (readyClient.settings.apiUrl "a")).toOption =
      some { scheme := "http", authority := some { host := .name "v" },
             path := .segments ["v1", "a"] } := by decide +kernel
  have resolved : (Url.resolve
      { scheme := "http", authority := some { host := .name "v" }, path := .segments ["v1", "a"] }
      "http://w/").toOption =
        some { scheme := "http", authority := some { host := .name "w" },
               path := .segments [""] } := by decide +kernel
  have ends (request : Request) : nextUrl? request ⟨status, none, none, none⟩ = none := by
    unfold nextUrl?
    split <;> rfl
  exact ⟨"t", rfl, _, toOption_eq_some_iff.mp parsed, by decide +kernel, by decide +kernel,
    .later rfl rfl resolved (.inBody rfl rfl rfl (ends _))⟩

/-- The login at the same server. -/
def readyAccount : ServiceAccount where
  settings := readyClient.settings

theorem loginBreaks_unreached : readyAccount.LoginBreaks (some []) .unreachable .beforeAnswer := by
  have parsed : (Url.parse (readyAccount.settings.apiUrl readyAccount.loginPath)).toOption =
      some { scheme := "http", authority := some { host := .name "v" },
             path := .segments ["v1", "auth", "kubernetes", "login"] } := by decide +kernel
  exact ⟨"", rfl, _, toOption_eq_some_iff.mp parsed, by decide +kernel, by decide +kernel,
    .unreached rfl⟩

theorem breakages_are_told_of_unavailable :
    (readyClient.ReadBreaks (breakingOff 503) "a" (.inBody 503) ∧
      ∃ reason, (readyClient.read (breakingOff 503) "a").2 = .error (.unavailable reason)) ∧
    readyAccount.LoginBreaks (some []) .unreachable .beforeAnswer ∧
      ∃ reason, (readyAccount.token (some []) .unreachable).2 = .error (.unavailable reason) := by
  have breaks := readBreaks_breakingOff 503
  have loginBreaks := loginBreaks_unreached
  obtain ⟨error, told, tells⟩ :=
    (breakages_are_told readyClient readyAccount "a" none (breakingOff 503) _).1 breaks
  obtain ⟨loginError, loginTold, loginTells⟩ :=
    (breakages_are_told readyClient readyAccount "a" (some []) .unreachable _).2 loginBreaks
  obtain ⟨reason, rfl⟩ := tells.unavailable (by rintro _ ⟨⟩; decide)
  obtain ⟨loginReason, rfl⟩ := loginTells.unavailable nofun
  exact ⟨⟨breaks, reason, told⟩, loginBreaks, loginReason, loginTold⟩

/-- Where the body of an answer breaks off that went well, the server is not said to be
unavailable. -/
theorem broken_success_is_no_unavailability :
    readyClient.ReadBreaks (breakingOff 200) "a" (.inBody 200) ∧
      ∀ reason, (readyClient.read (breakingOff 200) "a").2 ≠ .error (.unavailable reason) := by
  have breaks := readBreaks_breakingOff 200
  obtain ⟨error, told, tells⟩ := breaks.told
  refine ⟨breaks, fun reason => ?_⟩
  rw [told, (tells.ofAnswer 200 rfl).1 (by decide)]
  exact nofun

end SecretRenewal
