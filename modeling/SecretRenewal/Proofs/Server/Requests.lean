/-
This file proves that whatever a loader sends through its client carries the token of the very
cycle it is sent for. The client keeps the token it was last handed, and a read looks it up before
it sends anything, so there may be a while between the two. The loader hands tokens to nobody but
this client, and nobody else does. A request may lead on to further ones, and these carry the
same token again.
-/
import SecretRenewal.Proofs.Loader.Tokens
import SecretRenewal.Proofs.Url.Names
import SecretRenewal.Server.Connected
import Mathlib.Data.List.Induction

namespace SecretRenewal

/-! ### What a read sends -/

namespace Http

/-- The tokens that a request presents. -/
def Request.tokens (request : Request) : List String :=
  (request.headers.filter (·.1 = "x-vault-token")).map Prod.snd

variable (network : Network) (request : Request)

theorem redirected_get (isGet : request.method = .get) (received : Received) (url : Url) :
    (redirected request received url).method = .get ∧
      (redirected request received url).tokens = request.tokens := by
  unfold redirected
  split
  · exact ⟨isGet, rfl⟩
  · refine ⟨rfl, ?_⟩
    simp only [Request.tokens, List.filter_filter]
    congr 2
    funext header
    by_cases isToken : header.1 = "x-vault-token" <;> simp [isToken]

theorem Network.requests_exchange (isGet : request.method = .get) : ∃ more,
    (network.exchange request).1.requests = network.requests ++ more ∧
      ∀ sent ∈ more, sent.method = .get ∧ sent.tokens = request.tokens := by
  unfold Network.exchange
  split
  · refine ⟨[request], rfl, fun sent member => ?_⟩
    rw [List.mem_singleton.mp member]
    exact ⟨isGet, rfl⟩
  · exact ⟨[], (List.append_nil _).symm, fun _ member => absurd member List.not_mem_nil⟩

theorem requests_follow [Url.DomainNames] (remaining : Nat) (isGet : request.method = .get) :
    ∃ more, (follow remaining network request).1.requests = network.requests ++ more ∧
      ∀ sent ∈ more, sent.method = .get ∧ sent.tokens = request.tokens := by
  induction remaining generalizing network request with
  | zero =>
    obtain ⟨more, requests, first⟩ := network.requests_exchange request isGet
    refine ⟨more, ?_, first⟩
    rw [← requests]
    unfold follow
    split
    · rename_i exchanged
      rw [exchanged]
    · rename_i exchanged
      rw [exchanged]
      split <;> rfl
  | succ remaining inductionHypothesis =>
    obtain ⟨more, requests, first⟩ := network.requests_exchange request isGet
    unfold follow
    split
    · rename_i exchanged
      exact ⟨more, by rw [← requests, exchanged], first⟩
    · rename_i after received exchanged
      rw [exchanged] at requests
      split
      · exact ⟨more, requests, first⟩
      · rename_i url next
        obtain ⟨isGetToo, sameTokens⟩ := redirected_get request isGet received url
        obtain ⟨further, requestsAfter, others⟩ := inductionHypothesis after _ isGetToo
        refine ⟨more ++ further, ?_, fun sent member => ?_⟩
        · rw [← List.append_assoc, ← requests]
          exact requestsAfter
        · rcases List.mem_append.mp member with now | later
          · exact first sent now
          · exact sameTokens ▸ others sent later

theorem requests_send [Url.DomainNames] (address : String) (headers : List (String × String)) :
    ∃ more, (send network .get address headers none).1.requests = network.requests ++ more ∧
      ∀ sent ∈ more, sent.method = .get ∧
        sent.tokens = (headers.filter (·.1 = "x-vault-token")).map Prod.snd := by
  have nothing : ∃ more, network.requests = network.requests ++ more ∧
      ∀ sent ∈ more, sent.method = .get ∧
        sent.tokens = (headers.filter (·.1 = "x-vault-token")).map Prod.snd :=
    ⟨[], (List.append_nil _).symm, nofun⟩
  unfold send
  split
  · exact nothing
  · simp only
    split
    · exact nothing
    · split
      · exact nothing
      · exact requests_follow network _ redirectLimit rfl

end Http

namespace ServerClient

open Http

theorem tokens_headers (settings : ServerSettings) :
    settings.headers.filter (·.1 = "x-vault-token") = [] := by
  unfold ServerSettings.headers
  cases settings.requestNamespace <;> rfl

/-- A read sends nothing but requests to be given something, with the token of the client. -/
theorem requests_read [Url.DomainNames] {client : ServerClient} {token : String}
    (holds : client.token = some token) (network : Network) (path : String) : ∃ more,
      (client.read network path).1.requests = network.requests ++ more ∧
        ∀ sent ∈ more, sent.method = .get ∧ sent.tokens = [token] := by
  obtain ⟨more, requests, sent⟩ := requests_send network (client.settings.apiUrl path)
    (("x-vault-token", token) :: client.settings.headers)
  refine ⟨more, ?_, ?_⟩
  · rw [← requests]
    unfold read
    simp only [holds]
    split <;> (rename_i answered; rw [answered])
  · simpa [tokens_headers] using sent

end ServerClient

/-! ### A loader and its client -/

namespace Loader

variable {sink : Type}

/-- The step that the loader takes, if it is one. -/
def Happening.action? : Happening → Option Action
  | .acts action => some action
  | _ => none

/-- What the loader does. -/
def actionsOf (happenings : List Happening) : List Action :=
  happenings.filterMap Happening.action?

theorem actionsOf_append_singleton (happenings : List Happening) (happening : Happening) :
    actionsOf (happenings ++ [happening]) =
      actionsOf happenings ++ happening.action?.toList := by
  unfold actionsOf
  rw [List.filterMap_append]
  cases happening <;> rfl

/-- What is done to the cycle of another party answers nothing to this one. -/
theorem Action.answersAfter_of_other {action : Action} {party : Party}
    (other : action.party? ≠ some party) (answers : List Answer) :
    action.answersAfter party answers = answers := by
  cases action with
  | begin host delivery => exact if_neg fun same => other (congrArg some same.symm)
  | launch => exact if_neg fun same => other (congrArg some same.symm)
  | tokenReturned asked answer => exact if_neg fun same => other (congrArg some same.symm)
  | readReturned asked answer => exact if_neg fun same => other (congrArg some same.symm)
  | _ => rfl

theorem WasGiven.of_other {actions : List Action} {action : Action} {party : Party}
    {auth : AuthToken} (given : WasGiven actions party auth) (other : action.party? ≠ some party) :
    WasGiven (actions ++ [action]) party auth := by
  obtain ⟨values, answers⟩ := given
  refine ⟨values, ?_⟩
  rw [answersOf_append_singleton, Action.answersAfter_of_other other, answers]

theorem actionsOf_append_other {happening : Happening} (other : happening.action? = none)
    (happenings : List Happening) :
    actionsOf (happenings ++ [happening]) = actionsOf happenings := by
  rw [actionsOf_append_singleton, other]
  exact List.append_nil _

theorem Stage.hasHandedOver_of_reading {stage : Stage} (reads : stage.isReading = true) :
    stage.hasHandedOver = true := by
  cases stage with
  | reading gathering => rfl
  | _ => cases reads

theorem Connected.exists_cycle_of_path {connected : Connected sink} {party : Party} {path : String}
    (reads : connected.path? party = some path) :
    ∃ cycle, connected.loader.cycles party = some cycle ∧ cycle.stage.isReading = true := by
  obtain ⟨cycle, running, isPath⟩ := Option.bind_eq_some_iff.mp reads
  exact ⟨cycle, running, by rw [Stage.isReading, isPath]; rfl⟩

/-- What a read sends are requests to be given something, with the token it looked up. -/
theorem Connected.exists_sent [Url.DomainNames] (connected : Connected sink) (party : Party)
    (network : Http.Network) (path token : String) : ∃ requests : List Http.Request,
      (connected.send party network path token).sent = connected.sent ++ requests.map (party, ·) ∧
        ∀ request ∈ requests, request.method = .get ∧ request.tokens = [token] := by
  have holds : ({ connected.client with token := some token } : ServerClient).token = some token :=
    rfl
  obtain ⟨more, requests, sent⟩ :=
    ServerClient.requests_read holds { network with requests := [] } path
  refine ⟨more, ?_, sent⟩
  unfold Connected.send
  simp only
  rw [requests, List.nil_append]

section

variable [ConfigSink sink] {settings : LoaderSettings} {sinks : Target → sink}
  {client : ServerClient} {happenings : List Happening} {happening : Happening}
  {connected next : Connected sink}

/-- A step of a loader and its client, with everything that had to be so for it to happen. -/
inductive Flow [Url.DomainNames] (connected : Connected sink) : Happening → Connected sink → Prop
  | acts {action : Action} {next : State sink} (move : Move connected.loader action next) :
      Flow connected (.acts action) (connected.after action next)
  | looksUp {party : Party} {path : String} (reads : connected.path? party = some path) :
      Flow connected (.looksUp party) (connected.lookUp party)
  | sends {party : Party} {network : Http.Network} {path token : String}
      (reads : connected.path? party = some path) (looked : connected.held party = some token) :
      Flow connected (.sends party network) (connected.send party network path token)

theorem Flow.of_step? [Url.DomainNames] (step : connected.step? happening = some next) :
    Flow connected happening next := by
  cases happening with
  | acts action =>
    obtain ⟨after, acts, rfl⟩ := Option.map_eq_some_iff.mp step
    exact .acts (.of_step? acts)
  | looksUp party =>
    obtain ⟨path, reads, rfl⟩ := Option.map_eq_some_iff.mp step
    exact .looksUp reads
  | sends party network =>
    obtain ⟨path, reads, rest⟩ := Option.bind_eq_some_iff.mp step
    obtain ⟨token, looked, same⟩ := Option.bind_eq_some_iff.mp rest
    obtain rfl := Option.some.inj same
    exact .sends reads looked

/-- Nothing but the handing over of a token changes the client. A read does not, however far it has
got. -/
theorem Flow.client_eq [Url.DomainNames] (flow : Flow connected happening next)
    (other : ∀ party, happening ≠ .acts (.tokenTaken party)) : next.client = connected.client := by
  cases flow with
  | @acts action after move =>
    cases action with
    | tokenTaken party => exact absurd rfl (other party)
    | _ => rfl
  | looksUp reads => rfl
  | sends reads looked => rfl

/-- Where the client came from this one, and holds the token that the loader handed over last if
there is one, this is so after a step of the loader as well. -/
theorem Connected.clientAfter_eq {action : Action} {after : State sink}
    (move : Move connected.loader action after)
    (holds : connected.client =
      { client with token := connected.loader.storeToken.or client.token }) :
    connected.clientAfter action = { client with token := after.storeToken.or client.token } := by
  cases action with
  | tokenTaken party =>
    cases move with
    | @tokenTaken _ cycle auth active stage =>
      have handed : (connected.loader.cycles party).map Cycle.stage = some (.handingOver auth) := by
        rw [State.cycles_of_active active, Option.map_some, stage]
      rw [State.moveCycle_eq]
      simp only [Connected.clientAfter, handed, ServerClient.setToken, holds]
      rfl
  | _ =>
    cases TokenStep.of_move move with
    | kept token cycles =>
      rw [token]
      exact holds

/-- What the client holds and what reads have looked up in the course of a run. -/
structure Presents (settings : LoaderSettings) (sinks : Target → sink) (client : ServerClient)
    (happenings : List Happening) (connected : Connected sink) : Prop where
  runs : (State.start settings sinks).run? (actionsOf happenings) = some connected.loader
  holds : connected.client =
    { client with token := connected.loader.storeToken.or client.token }
  held : ∀ party token, connected.held party = some token →
    ∃ auth, WasGiven (actionsOf happenings) party auth ∧ auth.token = token

/-- While a cycle reads, the client holds the token that this cycle was given. -/
theorem Presents.exists_given (presents : Presents settings sinks client happenings connected)
    {party : Party} {cycle : Cycle} (running : connected.loader.cycles party = some cycle)
    (reads : cycle.stage.isReading = true) : ∃ auth,
      WasGiven (actionsOf happenings) party auth ∧ connected.client.token = some auth.token := by
  obtain ⟨auth, given, stored⟩ := holdsOwn_of_run presents.runs party cycle running
    (Stage.hasHandedOver_of_reading reads)
  refine ⟨auth, given, ?_⟩
  rw [presents.holds, stored]
  rfl

theorem Presents.step [Url.DomainNames]
    (presents : Presents settings sinks client happenings connected)
    (flow : Flow connected happening next) :
    Presents settings sinks client (happenings ++ [happening]) next := by
  cases flow with
  | @acts action after move =>
    have more : actionsOf (happenings ++ [.acts action]) = actionsOf happenings ++ [action] :=
      actionsOf_append_singleton ..
    constructor
    · rw [more]
      exact State.run?_append_of_move presents.runs move
    · exact Connected.clientAfter_eq move presents.holds
    · intro party token looked
      rw [more]
      simp only [Connected.after] at looked
      split at looked
      · cases looked
      · rename_i other
        obtain ⟨auth, given, isToken⟩ := presents.held party token looked
        exact ⟨auth, given.of_other other, isToken⟩
  | @looksUp party path reads =>
    have same : actionsOf (happenings ++ [.looksUp party]) = actionsOf happenings :=
      actionsOf_append_other rfl happenings
    refine ⟨same ▸ presents.runs, presents.holds, fun other token looked => ?_⟩
    rw [same]
    by_cases isParty : other = party
    · subst isParty
      obtain ⟨cycle, running, reading⟩ := Connected.exists_cycle_of_path reads
      obtain ⟨auth, given, holds⟩ := presents.exists_given running reading
      have isToken : connected.client.token = some token := by
        simpa [Connected.lookUp] using looked
      exact ⟨auth, given, Option.some.inj (holds.symm.trans isToken)⟩
    · have earlier : connected.held other = some token := by
        simpa [Connected.lookUp, isParty] using looked
      exact presents.held other token earlier
  | @sends party network path token reads looked =>
    have same : actionsOf (happenings ++ [.sends party network]) = actionsOf happenings :=
      actionsOf_append_other rfl happenings
    exact ⟨same ▸ presents.runs, presents.holds, same ▸ presents.held⟩

theorem presents_of_run [Url.DomainNames]
    (run : (Connected.start settings sinks client).run? happenings = some connected) :
    Presents settings sinks client happenings connected := by
  induction happenings using List.reverseRecOn generalizing connected with
  | nil =>
    cases run
    exact ⟨rfl, rfl, nofun⟩
  | append_singleton happenings happening inductionHypothesis =>
    rw [Connected.run?, List.foldlM_append] at run
    obtain ⟨before, earlier, last⟩ := Option.bind_eq_some_iff.mp run
    obtain ⟨after, step, same⟩ := Option.bind_eq_some_iff.mp last
    obtain rfl := Option.some.inj same
    exact (inductionHypothesis earlier).step (.of_step? step)

/-- Whatever is sent at any moment of a run is sent for a cycle that reads just then. It only asks
to be given something, and it carries one token, the one that this cycle was given. While a
cycle reads, the client holds that token. -/
theorem requests_carry_own_token [Url.DomainNames]
    (run : (Connected.start settings sinks client).run? happenings = some connected) :
    (∀ party cycle, connected.loader.cycles party = some cycle → cycle.stage.isReading = true →
      ∃ auth, WasGiven (actionsOf happenings) party auth ∧
        connected.client.token = some auth.token) ∧
    ∀ happening next, connected.step? happening = some next →
      ∃ sent, next.sent = connected.sent ++ sent ∧ ∀ entry ∈ sent,
        entry.2.method = .get ∧
        (∃ cycle, connected.loader.cycles entry.1 = some cycle ∧ cycle.stage.isReading = true) ∧
        ∃ auth, WasGiven (actionsOf happenings) entry.1 auth ∧ entry.2.tokens = [auth.token] := by
  have presents : Presents settings sinks client happenings connected := presents_of_run run
  refine ⟨fun party cycle running reads => presents.exists_given running reads, ?_⟩
  intro happening next step
  cases Flow.of_step? step with
  | acts move =>
    exact ⟨[], (List.append_nil _).symm, fun _ member => absurd member List.not_mem_nil⟩
  | looksUp reads =>
    exact ⟨[], (List.append_nil _).symm, fun _ member => absurd member List.not_mem_nil⟩
  | @sends party network path token reads looked =>
    obtain ⟨requests, more, sent⟩ := connected.exists_sent party network path token
    refine ⟨requests.map (party, ·), more, fun entry member => ?_⟩
    obtain ⟨request, wasSent, rfl⟩ := List.mem_map.mp member
    obtain ⟨isGet, tokens⟩ := sent request wasSent
    obtain ⟨auth, given, rfl⟩ := presents.held party token looked
    exact ⟨isGet, Connected.exists_cycle_of_path reads, auth, given, tokens⟩

end

attribute [local instance] Url.asciiNames

/-- A client of a server by the name of v, with a token that was left in it. -/
def usedClient : ServerClient where
  settings.address :=
    { scheme := "http", authority := some { host := .name "v" }, path := .segments [""] }
  token := some "r"

/-- One task hands a token over and gives up before its first read is sent. Another task has been
waiting for its turn, gets a token of its own and begins to read. -/
def tokenLeftBehind : List Happening :=
  [.acts (.begin 0 (.direct (.own 0))), .acts (.enter (.host 0)),
    .acts (.tokenReturned (.host 0) (.ok ⟨"s", .ofSeconds 60⟩)), .acts (.tokenTaken (.host 0)),
    .looksUp (.host 0), .acts (.begin 1 (.direct (.own 1))), .acts (.abandon 0),
    .acts (.enter (.host 1)), .acts (.tokenReturned (.host 1) (.ok ⟨"t", .ofSeconds 60⟩)),
    .acts (.tokenTaken (.host 1)), .looksUp (.host 1)]

/-- A network on which the first answer leads on to another server. -/
def leadingOn : Http.Network where
  reaches := fun _ => true
  responses := [{ status := 307, location := some "http://w/" }]

theorem requests_carry_own_token_left_behind : ∃ connected next : Connected Values,
    (Connected.start twoSecrets (fun _ => Values.empty) usedClient).run? tokenLeftBehind =
        some connected ∧
      connected.step? (.sends (.host 1) leadingOn) = some next ∧
      next.sent.map (fun entry => (entry.1, entry.2.url.text, entry.2.tokens)) =
        [(.host 1, "http://v/v1/a", ["t"]), (.host 1, "http://w/", ["t"])] ∧
      ∃ sent, next.sent = connected.sent ++ sent ∧ ∀ entry ∈ sent, entry.2.method = .get ∧
        (∃ cycle, connected.loader.cycles entry.1 = some cycle ∧ cycle.stage.isReading = true) ∧
        ∃ auth, WasGiven (actionsOf tokenLeftBehind) entry.1 auth ∧
          entry.2.tokens = [auth.token] := by
  have view : ((Connected.start twoSecrets (fun _ => Values.empty) usedClient).run?
        tokenLeftBehind).bind (fun connected =>
          (connected.step? (.sends (.host 1) leadingOn)).map fun next =>
            next.sent.map fun entry => (entry.1, entry.2.url.text, entry.2.tokens)) =
      some [(.host 1, "http://v/v1/a", ["t"]), (.host 1, "http://w/", ["t"])] := by
    decide +kernel
  obtain ⟨connected, run, rest⟩ := Option.bind_eq_some_iff.mp view
  obtain ⟨next, step, sent⟩ := Option.map_eq_some_iff.mp rest
  exact ⟨connected, next, run, step, sent, (requests_carry_own_token run).2 _ next step⟩

end Loader

end SecretRenewal
