/-
This file follows a payload from the answer that carries it into a sink. A versioned store wraps
the payload once more, and exactly that wrapping is taken off, only once: what is inside may look
the same and stays as it is, and so does everything that is not quite such a wrapping. What a read
gives is the payload of the answer it received, so the keys that a cycle writes are those of the
payloads with their prefixes, and the metadata of a wrapping never reach the sink.
-/
import SecretRenewal.Proofs.Json.Ordering
import SecretRenewal.Proofs.Loader.Merges
import SecretRenewal.Proofs.Server.Failures
import Mathlib.Data.List.Permutation

namespace SecretRenewal

open Json

namespace SecretReply

/-! ### The payload of an answer -/

/-- The data are a payload next to metadata that name a version, and nothing else. -/
def IsEnvelope (data payload metadata : Entries Json) : Prop :=
  data.Perm [("data", .object payload), ("metadata", .object metadata)] ∧
    ∃ version, Entries.get? metadata "version" = some version

/-- What the data of an answer carry. -/
inductive Carries : Option (Entries Json) → Entries Json → Prop
  /-- There are no data. -/
  | nothing : Carries none []
  /-- The payload is wrapped. -/
  | wrapped {data payload metadata : Entries Json} (envelope : IsEnvelope data payload metadata) :
      Carries (some data) payload
  /-- The data are the payload themselves. -/
  | plain {data : Entries Json} (bare : ∀ payload metadata, ¬IsEnvelope data payload metadata) :
      Carries (some data) data

/-- What an envelope holds is taken out of it. -/
theorem unwrapped?_of_isEnvelope {data payload metadata : Entries Json}
    (envelope : IsEnvelope data payload metadata) : unwrapped? data = some payload := by
  obtain ⟨both, version, named⟩ := envelope
  rcases List.perm_pair.mp both with rfl | rfl <;> simp [unwrapped?, Entries.get?, named]

/-- Nothing is taken out but of an envelope. -/
theorem isEnvelope_of_unwrapped? {data payload : Entries Json}
    (isPayload : unwrapped? data = some payload) :
    ∃ metadata, IsEnvelope data payload metadata := by
  unfold unwrapped? at isPayload
  split at isPayload
  · rename_i found metadata two hasData hasMetadata
    split at isPayload
    · rename_i versioned
      cases isPayload
      refine ⟨metadata, ?_, Option.isSome_iff_exists.mp versioned⟩
      obtain ⟨⟨firstKey, first⟩, ⟨secondKey, second⟩, rfl⟩ := List.length_eq_two.mp two
      refine List.perm_pair.mpr ?_
      simp only [Entries.get?] at hasData hasMetadata
      split at hasData
      · rename_i isFirst
        cases hasData
        rw [if_neg (by rw [isFirst]; decide)] at hasMetadata
        split at hasMetadata
        · rename_i isSecond
          cases hasMetadata
          exact .inl (by rw [isFirst, isSecond])
        · cases hasMetadata
      · split at hasData
        · rename_i isSecond
          cases hasData
          split at hasMetadata
          · rename_i isFirst
            cases hasMetadata
            exact .inr (by rw [isFirst, isSecond])
          · rw [if_neg (by rw [isSecond]; decide)] at hasMetadata
            cases hasMetadata
        · cases hasData
    · cases isPayload
  · cases isPayload

/-- The payload of a secret is what the reply carries. -/
theorem carries_secret (reply : SecretReply) : Carries reply.data reply.secret.payload := by
  unfold secret
  cases reply.data with
  | none => exact .nothing
  | some data =>
    show Carries (some data) ((unwrapped? data).getD data)
    cases isPayload : unwrapped? data with
    | none =>
      refine .plain fun payload metadata envelope => ?_
      rw [unwrapped?_of_isEnvelope envelope] at isPayload
      cases isPayload
    | some payload =>
      obtain ⟨metadata, envelope⟩ := isEnvelope_of_unwrapped? isPayload
      exact .wrapped envelope

/-- A reply carries one payload. -/
theorem Carries.unique {data : Option (Entries Json)} {payload other : Entries Json}
    (carries : Carries data payload) (alsoCarries : Carries data other) : payload = other := by
  cases carries with
  | nothing =>
    cases alsoCarries
    rfl
  | wrapped envelope =>
    cases alsoCarries with
    | wrapped alsoEnvelope =>
      exact Option.some.inj ((unwrapped?_of_isEnvelope envelope).symm.trans
        (unwrapped?_of_isEnvelope alsoEnvelope))
    | plain bare => exact absurd envelope (bare _ _)
  | plain bare =>
    cases alsoCarries with
    | wrapped envelope => exact absurd envelope (bare _ _)
    | plain => rfl

/-! ### Keys of what is read -/

open Json.Reader

/-- The keys of the data are in ascending order, and so are those of the objects inside. -/
def HasOrder (reply : SecretReply) : Prop := ∀ data ∈ reply.data, Ordered (.object data)

/-- The same of the fields read so far. -/
def Fields.HasOrder (fields : Fields) : Prop :=
  ∀ field ∈ fields.data, ∀ data ∈ field, Ordered (.object data)

theorem Fields.HasOrder.complete {fields : Fields} (hasOrder : fields.HasOrder) :
    fields.complete.HasOrder := by
  unfold SecretReply.HasOrder Fields.complete
  cases isField : fields.data with
  | none => exact nofun
  | some field => exact hasOrder field isField

theorem hasOrder_of_optional (depth : Nat) : Yields (optional (mapValue depth)) fun field =>
    ∀ data ∈ field, Ordered (.object data) :=
  (ordered_of_mapValue depth).optional

theorem Fields.HasOrder.member {fields : Fields} (hasOrder : fields.HasOrder) (depth : Nat)
    (key : String) : Yields (member depth key fields) Fields.HasOrder := by
  unfold SecretReply.member
  refine .ite ?_ (.ite (.bind fun _ => .pure hasOrder) (.ite (.bind fun _ => .pure hasOrder)
    (.ite (.bind fun _ => .pure hasOrder) (.bind fun _ => .pure hasOrder))))
  exact .after (hasOrder_of_optional depth).onceField fun _ given => .pure given

theorem hasOrder_of_fieldsInOrder (depth : Nat) :
    Yields (fieldsInOrder depth) Fields.HasOrder := by
  unfold fieldsInOrder
  refine .after (hasOrder_of_optional depth).item? fun _ given => ?_
  refine .ite (.pure nofun) (.bind fun _ => .ite (.pure given) (.bind fun _ => ?_))
  exact .ite (.pure given) (.bind fun _ => .pure given)

/-- Objects in a reply have their members in order. -/
theorem hasOrder_of_parse {bytes : List UInt8} {reply : SecretReply}
    (parsed : parse bytes = .ok reply) : reply.HasOrder := by
  refine Yields.run ?_ parsed
  unfold reader
  refine .after (.record hasOrder_of_fieldsInOrder fun depth => .bind fun steps => ?_)
    fun _ hasOrder => .pure hasOrder.complete
  exact .foldMembers (fun key _ hasOrder => hasOrder.member depth key) steps true nofun

theorem Carries.ordered {data : Option (Entries Json)} {payload : Entries Json}
    (carries : Carries data payload) (hasOrder : ∀ given ∈ data, Ordered (.object given)) :
    Ordered (.object payload) := by
  cases carries with
  | nothing => exact .nothing
  | plain => exact hasOrder _ rfl
  | wrapped envelope =>
    have inside := envelope.1.mem_iff.mpr List.mem_cons_self
    exact (hasOrder _ rfl).of_mem inside

theorem HasOrder.isMap {reply : SecretReply} (hasOrder : reply.HasOrder) : reply.secret.IsMap :=
  (reply.carries_secret.ordered hasOrder).ascending.nodup_keys

end SecretReply

/-! ### What a read gives -/

open Http

/-- A client reads a path, and the answer that comes goes well, arrives whole and holds this
reply. -/
def ServerClient.Receives [Url.DomainNames] (client : ServerClient) (network : Network)
    (path : String) (reply : SecretReply) : Prop :=
  ∃ token after received bytes, client.token = some token ∧
    Http.send network .get (client.settings.apiUrl path)
      (("x-vault-token", token) :: client.settings.headers) none = (after, .ok received) ∧
    received.isSuccess = true ∧ received.body = some bytes ∧ SecretReply.parse bytes = .ok reply

namespace ServerClient

theorem readBody_eq_ok_iff {value : Type} {received : Received}
    {parse : List UInt8 → Except Json.Problem value} {result : value} :
    readBody received parse = .ok result ↔
      ∃ bytes, received.body = some bytes ∧ parse bytes = .ok result := by
  unfold readBody
  cases received.body with
  | none => exact iff_of_false nofun (by rintro ⟨_, ⟨⟩, -⟩)
  | some bytes =>
    simp only [Option.some.injEq, exists_eq_left']
    cases parse bytes <;> simp

/-- An answer passes as it is, and exactly if its status is a good one. -/
theorem checkStatus_eq_ok_iff {received checked : Received} {path : String} :
    checkStatus received path = .ok checked ↔ received.isSuccess = true ∧ checked = received := by
  unfold checkStatus
  by_cases success : received.isSuccess = true
  · rw [if_pos success]
    simp [success, eq_comm]
  · rw [if_neg success]
    refine iff_of_false ?_ fun both => success both.1
    split_ifs <;> exact nofun

/-- A secret comes of an answer that went well and whose body is a reply. -/
theorem secretOf_eq_ok_iff {received : Received} {path : String} {secret : Secret} :
    secretOf received path = .ok secret ↔ received.isSuccess = true ∧
      ∃ bytes reply, received.body = some bytes ∧ SecretReply.parse bytes = .ok reply ∧
        secret = reply.secret := by
  unfold secretOf
  cases checked : checkStatus received path with
  | error error =>
    refine iff_of_false nofun fun both => ?_
    rw [checkStatus_eq_ok_iff.mpr ⟨both.1, rfl⟩] at checked
    cases checked
  | ok same =>
    obtain ⟨success, rfl⟩ := checkStatus_eq_ok_iff.mp checked
    show (readBody same SecretReply.parse >>= fun reply => .ok reply.secret) = _ ↔ _
    cases outcome : readBody same SecretReply.parse with
    | error error =>
      refine iff_of_false nofun ?_
      rintro ⟨-, bytes, reply, body, parsed, -⟩
      rw [readBody_eq_ok_iff.mpr ⟨bytes, body, parsed⟩] at outcome
      cases outcome
    | ok reply =>
      obtain ⟨bytes, body, parsed⟩ := readBody_eq_ok_iff.mp outcome
      constructor
      · rintro ⟨⟩
        exact ⟨success, bytes, reply, body, parsed, rfl⟩
      · rintro ⟨-, otherBytes, other, otherBody, otherParsed, rfl⟩
        rw [readBody_eq_ok_iff.mpr ⟨otherBytes, otherBody, otherParsed⟩] at outcome
        cases outcome
        rfl

/-- A read gives a secret just where it receives a reply, and then the secret of that reply. -/
theorem read_eq_ok_iff [Url.DomainNames] {client : ServerClient} {network : Network} {path : String}
    {secret : Secret} : (client.read network path).2 = .ok secret ↔
      ∃ reply, client.Receives network path reply ∧ secret = reply.secret := by
  unfold read Receives
  cases client.token with
  | none => exact iff_of_false nofun (by rintro ⟨_, ⟨_, _, _, _, ⟨⟩, -⟩, -⟩)
  | some token =>
    simp only [Option.some.injEq]
    cases sent : Http.send network .get (client.settings.apiUrl path)
      (("x-vault-token", token) :: client.settings.headers) none with
    | mk after outcome =>
      cases outcome with
      | error failure =>
        refine iff_of_false nofun ?_
        rintro ⟨reply, ⟨_, _, _, _, rfl, answered, -⟩, -⟩
        rw [sent] at answered
        cases answered
      | ok received =>
        dsimp only
        rw [secretOf_eq_ok_iff]
        constructor
        · rintro ⟨success, bytes, reply, body, parsed, rfl⟩
          exact ⟨reply, ⟨token, after, received, bytes, rfl, sent, success, body, parsed⟩, rfl⟩
        · rintro ⟨reply, ⟨_, _, _, bytes, rfl, answered, success, body, parsed⟩, rfl⟩
          rw [sent] at answered
          cases answered
          exact ⟨success, bytes, reply, body, parsed, rfl⟩

/-- Payloads that reads give have one value under each key. -/
theorem isMap_of_read [Url.DomainNames] {client : ServerClient} {network : Network}
    {path : String} {secret : Secret} (read : (client.read network path).2 = .ok secret) :
    secret.IsMap := by
  obtain ⟨reply, ⟨_, _, _, _, _, _, _, _, parsed⟩, rfl⟩ := read_eq_ok_iff.mp read
  exact (SecretReply.hasOrder_of_parse parsed).isMap

end ServerClient

/-! ### Payloads in a sink -/

namespace Loader

section

variable {secrets : List SecretDescriptor} {values : List Secret} {key : String}

/-- Where some secret gives a key, one of them is the last that does. -/
theorem exists_lastGives {place : Nat} {given : Json}
    (gives : GivesAt secrets values place key given) :
    ∃ last, LastGives secrets values key last := by
  induction secrets generalizing values place given with
  | nil =>
    obtain ⟨secret, value, found, -⟩ := gives
    cases found
  | cons secret rest inductionHypothesis =>
    cases values with
    | nil =>
      obtain ⟨secret, value, -, found, -⟩ := gives
      cases found
    | cons value others =>
      by_cases later : ∃ place given, GivesAt rest others place key given
      · obtain ⟨place, given, givesLater⟩ := later
        obtain ⟨last, lastGives⟩ := inductionHypothesis givesLater
        exact ⟨last, lastGives_cons.mpr (.inl lastGives)⟩
      · have noneGives : NoneGives rest others key := fun place given givesLater =>
          later ⟨place, given, givesLater⟩
        cases place with
        | zero => exact ⟨given, lastGives_cons.mpr (.inr ⟨noneGives, givesAt_cons_zero.mp gives⟩)⟩
        | succ place => exact absurd (givesAt_cons_succ.mp gives) (noneGives place given)

/-- A key is that of a carried payload, with the prefix of its secret. -/
def IsCarriedKey (secrets : List SecretDescriptor) (replies : List SecretReply) (key : String) :
    Prop :=
  ∃ (place : Nat) (secret : SecretDescriptor) (reply : SecretReply) (payload : Entries Json),
    secrets[place]? = some secret ∧ replies[place]? = some reply ∧
      SecretReply.Carries reply.data payload ∧
        ∃ name ∈ payload.map Prod.fst, secret.configKey name = key

/-- The keys of what replies carry are those that their secrets give. -/
theorem isCarriedKey_iff {replies : List SecretReply} : IsCarriedKey secrets replies key ↔
    ∃ place given, GivesAt secrets (replies.map SecretReply.secret) place key given := by
  constructor
  · rintro ⟨place, secret, reply, payload, isSecret, isReply, carries, name, member, isKey⟩
    obtain ⟨⟨_, given⟩, inside, rfl⟩ := List.mem_map.mp member
    rw [carries.unique reply.carries_secret] at inside
    exact ⟨place, given, secret, reply.secret, isSecret, by simp [isReply], _, isKey, inside⟩
  · rintro ⟨place, given, secret, value, isSecret, isValue, name, isKey, inside⟩
    rw [List.getElem?_map] at isValue
    obtain ⟨reply, isReply, rfl⟩ := Option.map_eq_some_iff.mp isValue
    exact ⟨place, secret, reply, _, isSecret, isReply, reply.carries_secret, name,
      List.mem_map_of_mem inside, isKey⟩

end

theorem exists_replies [Url.DomainNames] {values : List Secret} (each : ∀ value ∈ values,
      ∃ (client : ServerClient) (network : Network) (path : String),
        (client.read network path).2 = .ok value) :
    ∃ replies : List SecretReply, values = replies.map SecretReply.secret ∧
      ∀ reply ∈ replies, ∃ (client : ServerClient) (network : Network) (path : String),
        client.Receives network path reply := by
  induction values with
  | nil => exact ⟨[], rfl, nofun⟩
  | cons value values inductionHypothesis =>
    obtain ⟨⟨client, network, path, read⟩, others⟩ := List.forall_mem_cons.mp each
    obtain ⟨reply, receives, rfl⟩ := ServerClient.read_eq_ok_iff.mp read
    obtain ⟨replies, rfl, received⟩ := inductionHypothesis others
    exact ⟨reply :: replies, rfl,
      List.forall_mem_cons.mpr ⟨⟨client, network, path, receives⟩, received⟩⟩

/-- The secret of an answer has the payload that the answer carries, and that is one payload; its
lease is as many whole seconds as the answer says, and an empty name of the lease is none. A cycle
that returns well, with secrets that were read, sets in its sink the keys of the payloads that the
answers carried, each with the prefix of its secret and the value that the last of them gives, and
leaves everything else as it was. -/
theorem payloads_arrive_unwrapped [Url.DomainNames] (reply : SecretReply) {sink : Type}
    [ConfigSink sink] [MapSink sink] {settings : LoaderSettings} {sinks : Target → sink}
    {actions : List Action} {state next : State sink} {action : Action} {party : Party} :
    (SecretReply.Carries reply.data reply.secret.payload ∧
      (∀ payload, SecretReply.Carries reply.data payload → payload = reply.secret.payload) ∧
      reply.secret.lease.nanos = reply.leaseSeconds.toNat * 1000000000 ∧
      (reply.leaseId = "" → reply.secret.leaseId = none) ∧
      (reply.leaseId ≠ "" → reply.secret.leaseId = some reply.leaseId)) ∧
    ((State.start settings sinks).run? actions = some state → state.step? action = some next →
      next.results = state.results ++ [(party, .ok ())] →
      (∀ value, Answer.secret (.ok value) ∈ answersOf party actions →
        ∃ (client : ServerClient) (network : Network) (path : String),
          (client.read network path).2 = .ok value) →
      ∃ cycle auth replies, state.cycles party = some cycle ∧
        settings.secrets.length = replies.length ∧
        answersOf party actions = goodAnswers auth (replies.map SecretReply.secret) ∧
        (∀ reply ∈ replies, ∃ (client : ServerClient) (network : Network) (path : String),
          client.Receives network path reply) ∧
        (∀ key, IsCarriedKey settings.secrets replies key → ∃ given,
          LastGives settings.secrets (replies.map SecretReply.secret) key given ∧
            find? (next.sinks cycle.delivery.target) key = some given) ∧
        (∀ key, ¬IsCarriedKey settings.secrets replies key →
          find? (next.sinks cycle.delivery.target) key =
            find? (state.sinks cycle.delivery.target) key) ∧
        ∀ other ≠ cycle.delivery.target, next.sinks other = state.sinks other) := by
  refine ⟨⟨reply.carries_secret, fun payload carries => carries.unique reply.carries_secret, rfl,
    fun empty => if_pos empty, fun named => if_neg named⟩, fun run step returned reads => ?_⟩
  obtain ⟨cycle, auth, values, running, same, answers, commits⟩ :=
    commits_of_returned run step returned
  have each : ∀ value ∈ values, ∃ (client : ServerClient) (network : Network) (path : String),
      (client.read network path).2 = .ok value := fun value member =>
    reads value (by rw [answers]; exact List.mem_cons_of_mem _ (List.mem_map_of_mem member))
  have maps : ∀ value ∈ values, value.IsMap := by
    intro value member
    obtain ⟨client, network, path, read⟩ := each value member
    exact ServerClient.isMap_of_read read
  obtain ⟨replies, rfl, received⟩ := exists_replies each
  have holds : Holds settings.secrets (replies.map SecretReply.secret)
      (state.sinks cycle.delivery.target) (next.sinks cycle.delivery.target) := by
    rw [commits.sinks, Function.update_self]
    exact holds_setAll same maps _
  refine ⟨cycle, auth, replies, running, same.trans (List.length_map _), answers, received,
    fun key carried => ?_, fun key notCarried => Option.ext fun given => ?_,
    fun other different => by rw [commits.sinks, Function.update_of_ne different]⟩
  · obtain ⟨place, given, gives⟩ := isCarriedKey_iff.mp carried
    obtain ⟨last, lastGives⟩ := exists_lastGives gives
    exact ⟨last, lastGives, (holds key last).mpr (.inl lastGives)⟩
  · have noneGives : NoneGives settings.secrets (replies.map SecretReply.secret) key :=
      fun place given gives => notCarried (isCarriedKey_iff.mpr ⟨place, given, gives⟩)
    have noneLast : ¬LastGives settings.secrets (replies.map SecretReply.secret) key given :=
      fun ⟨place, gives, _⟩ => noneGives place given gives
    rw [holds key given]
    exact ⟨fun found => (found.resolve_left noneLast).2, fun found => .inr ⟨noneGives, found⟩⟩

attribute [local instance] Url.asciiNames

/-- A network that answers with a wrapped payload. -/
def versionedAnswer : Network where
  reaches := fun _ => true
  responses := [{
    body := ("\x7b\"data\":\x7b\"data\":\x7b\"a\":\"x\"\x7d," ++
      "\"metadata\":\x7b\"version\":1\x7d\x7d,\"lease_duration\":60\x7d").toList.map byteOf }]

/-- What is read there. -/
def versioned : Secret :=
  (readyClient.read versionedAnswer "a").2.toOption.getD
    { payload := [], lease := Duration.zero }

/-- One secret whose keys get a prefix. -/
def prefixed : LoaderSettings where
  secrets := [⟨"a", some "P"⟩]
  maxRetry := 0
  retryDelay := Duration.zero
  stopOnFailure := false
  initialDelay := Duration.zero
  watched := false

/-- A whole cycle with this secret, up to its write. -/
def versionedCycle : List Action :=
  [.begin 0 .locking, .enter (.host 0),
    .tokenReturned (.host 0) (.ok ⟨"t", Duration.ofSeconds 60⟩), .tokenTaken (.host 0),
    .readReturned (.host 0) (.ok versioned), .askSink (.host 0)]

theorem read_versioned : (readyClient.read versionedAnswer "a").2 = .ok versioned := by
  have isRead : (readyClient.read versionedAnswer "a").2.toOption.isSome = true := by
    decide +kernel
  unfold versioned
  generalize (readyClient.read versionedAnswer "a").2 = outcome at isRead
  cases outcome with
  | error error => cases isRead
  | ok value => rfl

theorem exists_versionedCycle : ∃ state next : State Values,
    (State.start prefixed fun _ => Values.empty).run? versionedCycle = some state ∧
      state.step? (.commit (.host 0)) = some next ∧
      next.results = state.results ++ [(.host 0, .ok ())] := by
  refine ⟨_, _, rfl, rfl, ?_⟩
  rw [State.results_finish, State.results_commit]

/-- The only secret that this run is given is the wrapped one. -/
theorem answersOf_versionedCycle {value : Secret}
    (member : Answer.secret (.ok value) ∈ answersOf (.host 0) versionedCycle) :
    value = versioned := by
  simpa [answersOf, versionedCycle, Action.answersAfter] using member

theorem isCarriedKey_versioned {reply : SecretReply} (isVersioned : reply.secret = versioned)
    {key : String} : IsCarriedKey prefixed.secrets [reply] key ↔ key = "Pa" := by
  have names : versioned.payload.map Prod.fst = ["a"] := by decide +kernel
  constructor
  · rintro ⟨place, secret, other, payload, isSecret, isReply, carries, name, member, rfl⟩
    cases place with
    | succ place => cases isSecret
    | zero =>
      cases isSecret
      cases isReply
      rw [carries.unique reply.carries_secret, isVersioned, names] at member
      rw [List.mem_singleton.mp member]
      decide
  · rintro rfl
    refine ⟨0, _, reply, _, rfl, rfl, reply.carries_secret, "a", ?_, by decide⟩
    rw [isVersioned, names]
    exact List.mem_singleton_self _

theorem payloads_arrive_unwrapped_of_versioned : ∃ state next : State Values,
    (State.start prefixed fun _ => Values.empty).run? versionedCycle = some state ∧
      state.step? (.commit (.host 0)) = some next ∧
      next.results = state.results ++ [(.host 0, .ok ())] ∧
      ∃ cycle, state.cycles (.host 0) = some cycle ∧
        (∃ given, find? (next.sinks cycle.delivery.target) "Pa" = some given) ∧
        find? (next.sinks cycle.delivery.target) "Pmetadata" =
          find? (state.sinks cycle.delivery.target) "Pmetadata" := by
  obtain ⟨state, next, run, step, returned⟩ := exists_versionedCycle
  obtain ⟨cycle, auth, replies, running, same, answers, -, carried, others, -⟩ :=
    (payloads_arrive_unwrapped ⟨none, "", 0, false⟩).2 run step returned
      fun value member => ⟨readyClient, versionedAnswer, "a", by
        rw [answersOf_versionedCycle member, read_versioned]⟩
  obtain ⟨reply, rfl⟩ := List.length_eq_one_iff.mp same.symm
  have isVersioned : reply.secret = versioned := by
    refine answersOf_versionedCycle ?_
    rw [answers]
    exact List.mem_cons_of_mem _ List.mem_cons_self
  obtain ⟨given, -, found⟩ := carried "Pa" ((isCarriedKey_versioned isVersioned).mpr rfl)
  refine ⟨state, next, run, step, returned, cycle, running, ⟨given, found⟩, others _ ?_⟩
  rw [isCarriedKey_versioned isVersioned]
  decide

end Loader

end SecretRenewal
