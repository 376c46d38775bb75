import OnlineFeatures.Rpc.Interceptor
import OnlineFeatures.Proofs.Client.Outcome

/-!
# Credentials on every call

However a client is made, its credentials go out with each of its calls and with each call that is
handed to its channel, once and behind the metadata that the call has already
(`Client.calls_authorized`).

**Lists.** What the channel hands on is a list of its own, so the lists that there were are a
beginning of the lists that there are afterwards. That is what one call keeps
(`Credentials.prefix_intercept`) and hence what a run keeps (`Carrier.prefix_carryAll`), as long as
the rest of the channel changes only lists that it is handed. A list handed over twice is therefore
read with the same entries twice.

**Sessions.** A client keeps its credentials along a run, and what it sends is what its channel
hands on of a call with nothing but a method (`Client.metadata_eq_handed`).
-/

namespace OnlineFeatures

/-! ## Metadata lists -/

section

variable {τ κ ρ α : Type} {lists later : MetadataLists}

theorem prefix_of_getElem?_eq (h : ∀ id, id < lists.length → later[id]? = lists[id]?) :
    lists <+: later := by
  rw [List.prefix_iff_getElem?]
  intro id hid
  rw [h id hid, List.getElem?_eq_getElem hid]

theorem getElem?_of_grown (h : lists <+: later) {id : Nat} (hid : id < lists.length) :
    later[id]? = lists[id]? := by
  rw [List.prefix_iff_getElem?.1 h id hid, List.getElem?_eq_getElem hid]

namespace HeldDetails

/-- Whether the metadata list is one of those that there are. -/
def Within (d : HeldDetails τ κ) (lists : MetadataLists) : Prop :=
  ∀ id, d.metadata = some id → id < lists.length

/-- A list reads the same however many lists are made after it. -/
theorem entries_of_grown {d : HeldDetails τ κ} (hd : d.Within lists) (h : lists <+: later) :
    d.entries later = d.entries lists := by
  rw [entries, entries]
  cases hid : d.metadata with
  | none => rfl
  | some id => simp [getElem?_of_grown h (hd id hid)]

end HeldDetails

/-! ## One call -/

/-- Whether a carrier changes no list that there was, but for the one that it is handed. -/
def Carrier.Frames (carry : Carrier τ κ ρ α) : Prop :=
  ∀ lists d request id, id < lists.length → d.metadata ≠ some id →
    (carry lists d request).1[id]? = lists[id]?

namespace Credentials

/-- The entry is put behind a copy of the metadata, and everything else is handed on as it came. -/
theorem intercept_eq (c : Credentials) (proceed : Carrier τ κ ρ α) (lists : MetadataLists)
    (d : HeldDetails τ κ) (request : ρ) :
    c.intercept proceed lists d request =
      proceed (lists ++ [d.entries lists ++ c.metadata]) { d with metadata := some lists.length }
        request := by
  have hcopy : (lists ++ [d.entries lists]).modify lists.length (· ++ c.metadata) =
      lists ++ [d.entries lists ++ c.metadata] := by
    simp [List.modify_eq_take_drop]
  simp only [intercept, hcopy]

/-- What is handed on reads as the details do, with the entry added. -/
theorem view_intercepted (c : Credentials) (lists : MetadataLists) (d : HeldDetails τ κ) :
    ({ d with metadata := some lists.length } : HeldDetails τ κ).view
        (lists ++ [d.entries lists ++ c.metadata]) = (d.view lists).authorized c := by
  simp [HeldDetails.view, HeldDetails.entries, CallDetails.authorized]

/-- A call past the credentials leaves all lists as they are, even the one that it came with. -/
theorem prefix_intercept (c : Credentials) {proceed : Carrier τ κ ρ α} (h : proceed.Frames)
    (lists : MetadataLists) (d : HeldDetails τ κ) (request : ρ) :
    lists <+: (c.intercept proceed lists d request).1 := by
  apply prefix_of_getElem?_eq
  intro id hid
  have hother :
      ({ d with metadata := some lists.length } : HeldDetails τ κ).metadata ≠ some id := by
    simp [Nat.ne_of_gt hid]
  rw [intercept_eq, h _ _ request id (by simp; omega) hother]
  exact List.getElem?_append_left hid

end Credentials

/-! ## Calls one after another -/

/-- What a carrier was handed, as it read then, and what it answered. -/
structure Handed (τ κ ρ α : Type) where
  details : CallDetails τ
  credentials : Option κ
  request : ρ
  answer : α

namespace Carrier

/-- The carrier, with what it is handed written down. -/
def traced (carry : Carrier τ κ ρ α) : Carrier τ κ ρ (Handed τ κ ρ α) := fun lists d request =>
  let (later, answer) := carry lists d request
  (later, ⟨d.view lists, d.credentials, request, answer⟩)

/-- The end of a channel, where nothing is left to be done. -/
def idle : Carrier τ κ ρ Unit := fun lists _ _ => (lists, ())

theorem frames_traced {carry : Carrier τ κ ρ α} (h : carry.Frames) : carry.traced.Frames := h

/-- The call that is handed on where details and a request come to credentials. -/
def authorizedCall (c : Credentials) (lists : MetadataLists) (call : HeldDetails τ κ × ρ) :
    CallDetails τ × Option κ × ρ :=
  ((call.1.view lists).authorized c, call.1.credentials, call.2)

theorem authorizedCall_of_prefix (c : Credentials) (h : lists <+: later)
    {call : HeldDetails τ κ × ρ} (hcall : call.1.Within lists) :
    authorizedCall c later call = authorizedCall c lists call := by
  have hentries := HeldDetails.entries_of_grown hcall h
  rw [HeldDetails.entries, HeldDetails.entries] at hentries
  simp only [authorizedCall, CallDetails.authorized, HeldDetails.view, hentries]

theorem prefix_carryAll {carry : Carrier τ κ ρ α}
    (h : ∀ lists d request, lists <+: (carry lists d request).1) (lists : MetadataLists)
    (calls : List (HeldDetails τ κ × ρ)) : lists <+: (carry.carryAll lists calls).1 := by
  induction calls generalizing lists with
  | nil => exact List.prefix_refl lists
  | cons call calls ih => exact (h lists call.1 call.2).trans (ih _)

/-- Every call of a run is handed on as it would be on the lists that there were at first. -/
theorem handed_carryAll (c : Credentials) {proceed : Carrier τ κ ρ α} (h : proceed.Frames)
    {calls : List (HeldDetails τ κ × ρ)} (hcalls : ∀ call ∈ calls, call.1.Within lists) :
    ((c.intercept proceed.traced).carryAll lists calls).2.map
        (fun got => (got.details, got.credentials, got.request)) =
      calls.map (authorizedCall c lists) := by
  -- the lists grow along the run, so the statement is about any that begin with the first ones
  suffices hlater : ∀ later, lists <+: later →
      ((c.intercept proceed.traced).carryAll later calls).2.map
          (fun got => (got.details, got.credentials, got.request)) =
        calls.map (authorizedCall c lists) from hlater lists (List.prefix_refl lists)
  intro later hlater
  induction calls generalizing later with
  | nil => rfl
  | cons call calls ih =>
    obtain ⟨hcall, hcalls⟩ := List.forall_mem_cons.1 hcalls
    have hgrow := c.prefix_intercept (frames_traced h) later call.1 call.2
    have hhanded : (c.intercept proceed.traced later call.1 call.2).2.details =
        (call.1.view later).authorized c := by
      rw [Credentials.intercept_eq]
      exact c.view_intercepted later call.1
    rw [List.map_cons, ← ih hcalls _ (hlater.trans hgrow),
      ← authorizedCall_of_prefix c hlater hcall]
    simp only [carryAll, List.map_cons, hhanded]
    rfl

/-- Writing down what is handed on changes neither lists nor answers. -/
theorem carryAll_traced (c : Credentials) (proceed : Carrier τ κ ρ α) (lists : MetadataLists)
    (calls : List (HeldDetails τ κ × ρ)) :
    (c.intercept proceed).carryAll lists calls =
      let run := (c.intercept proceed.traced).carryAll lists calls
      (run.1, run.2.map (·.answer)) := by
  induction calls generalizing lists with
  | nil => rfl
  | cons call calls ih =>
    simp only [carryAll, ih]
    rfl

end Carrier

end

/-! ## Clients -/

/-- The entries that a token is sent as: one, or none where there is no token. -/
def bearerEntries (token : Option String) : Metadata :=
  (token.map fun t => ("authorization", "Bearer " ++ t)).toList

namespace Client

/-- The ways in which a client is made, each with the token that is configured. -/
inductive MadeWith : Client → Option String → Prop where
  | onChannel (channel : Channel) (credentials : Option Credentials) (project : String) :
    MadeWith (onChannel channel credentials project) (credentials.map (·.token))
  | plaintext {e : Environment} {host : String} {port : Int} {c : Client} {logs : List LogEntry}
    (h : create e host port .none = .ok (c, logs)) : MadeWith c none
  | secured {e : Environment} {host : String} {port : Int} {o : SecurityOptions} {c : Client}
    {logs : List LogEntry} (h : create e host port o = .ok (c, logs)) :
    MadeWith c (o.credentials.map (·.token))
  | settings {e : Environment} {s : Settings} {c : Client} {logs : List LogEntry} {token : String}
    (h : ofSettings e s = .ok (c, logs)) (htoken : s.authToken = some token) (hne : token ≠ "") :
    MadeWith c (some token)
  | settingsWithoutToken {e : Environment} {s : Settings} {c : Client} {logs : List LogEntry}
    (h : ofSettings e s = .ok (c, logs)) (htoken : s.authToken = none ∨ s.authToken = some "") :
    MadeWith c none

theorem credentials_create {e : Environment} {host : String} {port : Int} {o : SecurityOptions}
    {c : Client} {logs : List LogEntry} (h : create e host port o = .ok (c, logs)) :
    c.credentials = o.credentials := by
  obtain ⟨channel, -, hmade⟩ := Except.map_eq_ok_iff.1 h
  cases hmade
  rfl

theorem credentials_ofSettings {e : Environment} {s : Settings} {c : Client} {logs : List LogEntry}
    (h : ofSettings e s = .ok (c, logs)) :
    c.credentials = (s.authToken.filter (· ≠ "")).map fun token => ⟨token⟩ := by
  obtain ⟨⟨made, entries⟩, hcreate, hmade⟩ := Except.map_eq_ok_iff.1 h
  cases hmade
  exact credentials_create hcreate

/-- Whichever way a client is made, it has the credentials of the token. -/
theorem MadeWith.credentials_eq {c : Client} {token : Option String} (h : c.MadeWith token) :
    c.credentials = token.map fun t => ⟨t⟩ := by
  cases h with
  | onChannel channel credentials project => cases credentials <;> rfl
  | plaintext h => exact credentials_create h
  | @secured _ _ _ o _ _ h =>
    rw [credentials_create h]
    cases o.credentials <;> rfl
  | settings h htoken hne => simp [credentials_ofSettings h, htoken, hne]
  | settingsWithoutToken h htoken =>
    rcases htoken with htoken | htoken <;> simp [credentials_ofSettings h, htoken]

theorem metadata_eq_bearerEntries {c : Client} {token : Option String}
    (h : c.credentials = token.map fun t => ⟨t⟩) : c.metadata = bearerEntries token := by
  cases token <;> simp [metadata, h, Credentials.metadata, bearerEntries]

/-! ## Runs of calls -/

theorem credentials_clientAfterAll (c : Client) (ms : List MadeCall) :
    (Session.clientAfterAll c ms).credentials = c.credentials := by
  induction ms generalizing c with
  | nil => rfl
  | cons m ms ih =>
    have hstep : (Session.clientAfter c m.call).credentials = c.credentials := by
      cases m.call <;> rfl
    rw [← hstep]
    exact ih _

theorem metadata_of_mem_call {α : Type} {c : Client} {method : RpcMethod} {request : Bytes}
    (decode? : Bytes → Option α) {reply : Reply} {sent : SentCall}
    (h : sent ∈ (c.call method request decode? reply).sent) : sent.metadata = c.metadata := by
  rw [call_sent] at h
  split at h
  · rw [List.mem_singleton.1 h]
  · cases h

/-- Whatever a call sends goes out with the metadata of the client. -/
theorem metadata_of_mem_answer {c : Client} {m : MadeCall} {sent : SentCall}
    (h : sent ∈ (c.answer m).sent) : sent.metadata = c.metadata := by
  cases hcall : m.call with
  | info reply =>
    rw [Session.answer_info hcall] at h
    exact metadata_of_mem_call (Message.decode? : Bytes → Option InfoResponse) h
  | features refs rows project reply =>
    cases hrows : rows.mapM (Row.build m.environment.now) with
    | error why =>
      simp only [answer, hcall, Session.run, hrows] at h
      cases h
    | ok built =>
      rw [Session.answer_features hcall hrows] at h
      cases hrefs : FeatureReference.ofNatives refs with
      | error why =>
        simp only [features, hrefs] at h
        cases h
      | ok parsed =>
        rw [features_eq hrefs] at h
        exact metadata_of_mem_call (Message.decode? : Bytes → Option FeaturesResponse) h
  | close =>
    simp only [answer, hcall, Session.run] at h
    cases h
  | setProject project =>
    simp only [answer, hcall, Session.run] at h
    cases h

/-- What a client sends is what its channel hands on of a call that has a method and nothing
else. -/
theorem metadata_eq_handed {τ κ : Type} (c : Client) (lists : MetadataLists) (method : RpcMethod)
    (request : Bytes) :
    let got :=
      ((Carrier.idle.traced.past c.credentials) lists (method.details : HeldDetails τ κ) request).2
    got.details.method = method.path ∧ got.details.metadata.getD [] = c.metadata ∧
      got.request = request := by
  cases hcredentials : c.credentials with
  | none => exact ⟨rfl, by rw [metadata, hcredentials]; rfl, rfl⟩
  | some k =>
    have hgot := k.view_intercepted lists (method.details : HeldDetails τ κ)
    simp only [Carrier.past, Credentials.intercept_eq, Carrier.traced, hgot]
    refine ⟨rfl, ?_, trivial⟩
    rw [metadata, hcredentials]
    rfl

/-- Every request of a client goes out with the entry of the token that the client is made with and
with no other, as its channel hands it on. Without a token the channel hands on what it is given.

With a token, the channel hands on any call, whatever its details, with the entry behind a copy of
its metadata and all else unchanged, and answers what comes back. Over a run of calls all lists that
there were stay as they were, so that details that are handed over again are read again with the one
entry. -/
theorem calls_authorized {c : Client} {token : Option String} (h : c.MadeWith token) :
    (∀ metrics ms, ∀ run ∈ ((⟨c, metrics⟩ : Session).makeAll ms).2, ∀ sent ∈ run.sent,
      sent.metadata = bearerEntries token ∧
      ∀ {τ κ : Type} (lists : MetadataLists),
        let got := ((Carrier.idle.traced.past c.credentials) lists
          (sent.method.details : HeldDetails τ κ) sent.request).2
        got.details.method = sent.method.path ∧ got.details.metadata.getD [] = sent.metadata ∧
          got.request = sent.request) ∧
    (token = none → ∀ {τ κ ρ α : Type} (proceed : Carrier τ κ ρ α),
      proceed.past c.credentials = proceed) ∧
    ∀ t, token = some t → ∀ {τ κ ρ α : Type} (proceed : Carrier τ κ ρ α),
      (∀ lists d request, proceed.past c.credentials lists d request =
        proceed (lists ++ [d.entries lists ++ [("authorization", "Bearer " ++ t)]])
          { d with metadata := some lists.length } request) ∧
      (proceed.Frames → ∀ lists calls, (∀ call ∈ calls, call.1.Within lists) →
        let run := (proceed.past c.credentials).carryAll lists calls
        let traced := (proceed.traced.past c.credentials).carryAll lists calls
        lists <+: run.1 ∧ run.2 = traced.2.map (·.answer) ∧
        traced.2.map (fun got => (got.details, got.credentials, got.request)) =
          calls.map fun (d, request) =>
            (⟨d.method, d.timeout, some (d.entries lists ++ [("authorization", "Bearer " ++ t)]),
              d.waitForReady, d.compression⟩, d.credentials, request)) := by
  have hcredentials := h.credentials_eq
  refine ⟨?_, ?_, ?_⟩
  · intro metrics ms run hrun sent hsent
    -- calls before may close the channel or change the project, but keep the credentials
    obtain ⟨i, hi⟩ := List.mem_iff_getElem?.1 hrun
    rw [Session.getElem?_makeAll] at hi
    obtain ⟨m, -, rfl⟩ := Option.map_eq_some_iff.1 hi
    have hkept := credentials_clientAfterAll c (ms.take i)
    have hmetadata : sent.metadata = c.metadata := by
      rw [metadata_of_mem_answer hsent, metadata, hkept, metadata]
    refine ⟨hmetadata.trans (metadata_eq_bearerEntries hcredentials), ?_⟩
    intro τ κ lists
    rw [hmetadata]
    exact metadata_eq_handed c lists sent.method sent.request
  · intro hnone τ κ ρ α proceed
    rw [hcredentials, hnone]
    rfl
  · intro t ht τ κ ρ α proceed
    have hpast {β : Type} (carry : Carrier τ κ ρ β) :
        carry.past c.credentials = (⟨t⟩ : Credentials).intercept carry := by
      rw [hcredentials, ht]
      rfl
    refine ⟨?_, ?_⟩
    · intro lists d request
      rw [hpast]
      exact Credentials.intercept_eq ⟨t⟩ proceed lists d request
    · intro hframes lists calls hcalls
      rw [hpast, hpast]
      refine ⟨?_, ?_, ?_⟩
      · exact Carrier.prefix_carryAll (Credentials.prefix_intercept ⟨t⟩ hframes) lists calls
      · rw [Carrier.carryAll_traced]
      · exact Carrier.handed_carryAll ⟨t⟩ hframes hcalls

/-- Details with an entry of their own are handed over twice, on a channel that goes on to add an
entry to each list that it is handed, and information is asked for in between: every call has the
token once. -/
theorem calls_authorized_twice :
    let c : Client := ⟨⟨"localhost:6566", .plaintext, 0⟩, some ⟨"secret"⟩, ""⟩
    let proceed : Carrier Nat Unit Bytes Nat := fun lists d request =>
      ((d.metadata.map fun id => lists.modify id (· ++ [("trace", "on")])).getD lists,
        request.length)
    let d : HeldDetails Nat Unit := ⟨"/service/method", some 5, some 0, none, some true, none⟩
    let lists : MetadataLists := [[("x-request", "1")]]
    let calls : List (HeldDetails Nat Unit × Bytes) := [(d, [1]), (d, [1, 2])]
    let entries : Metadata := [("x-request", "1"), ("authorization", "Bearer secret")]
    lists <+: ((proceed.past c.credentials).carryAll lists calls).1 ∧
      ((proceed.traced.past c.credentials).carryAll lists calls).2.map
          (fun got => (got.details.metadata, got.request)) =
            [(some entries, [1]), (some entries, [1, 2])] ∧
      ∀ run ∈ ((Session.start c).makeAll [⟨⟨.empty, [], ⟨0⟩⟩, ⟨0⟩, .info (.response [])⟩]).2,
        ∀ sent ∈ run.sent, sent.metadata = [("authorization", "Bearer secret")] := by
  intro c proceed d lists calls entries
  have hmade : ofSettings ⟨.empty, [], ⟨0⟩⟩ { Settings.default with authToken := some "secret" } =
      .ok (c, [⟨.info, .channel, "Opening plaintext channel to localhost:6566"⟩,
        ⟨.info, .client,
          "Feast client created for localhost:6566 (tls=False, authenticated=True)"⟩]) := by
    decide +kernel
  have hframes : proceed.Frames := by
    intro lists d request id hid hne
    cases hlist : d.metadata with
    | none => simp [proceed, hlist]
    | some handed =>
      have hother : handed ≠ id := fun heq => hne (by rw [hlist, heq])
      simp [proceed, hlist, hother]
  have hwithin : ∀ call ∈ calls, call.1.Within lists := by
    intro call hcall id hid
    have hdetails : call.1 = d := by
      simp only [calls, List.mem_cons, List.not_mem_nil, or_false] at hcall
      rcases hcall with rfl | rfl <;> rfl
    rw [hdetails] at hid
    simp only [d, Option.some.injEq] at hid
    simp [← hid, lists]
  obtain ⟨hsent, -, htoken⟩ := calls_authorized (.settings hmade rfl (by decide))
  obtain ⟨hgrown, -, hhanded⟩ := (htoken "secret" rfl proceed).2 hframes lists calls hwithin
  refine ⟨hgrown, ?_, fun run hrun sent hmem => (hsent .empty _ run hrun sent hmem).1⟩
  have hread := congrArg (List.map fun got => (got.1.metadata, got.2.2)) hhanded
  rw [List.map_map] at hread
  exact hread

end Client

end OnlineFeatures
