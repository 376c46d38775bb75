import OnlineFeatures.Proofs.Client.Credentials

/-!
# The token stays in the metadata

Two clients are made of settings that differ in nothing but their tokens, and used alike on channels
that reply alike. Then nothing tells them apart but the one metadata entry that the token is sent in
(`Client.token_confidential`).

**Channels.** A channel replies to what it has been sent, now and before (`Replies`), and may look
at all of it but the metadata (`Replies.Blind`). The calls of a run carry the replies that the
channel gives along the run (`Client.replied`, `Client.reply_replied`).

**Two clients.** A client with another token is the same client (`Client.withToken`). Making a
client, making a call on it and replying to it commute with the change of the token, up to metadata.
-/

namespace OnlineFeatures

/-- Lists with the same images have related elements, one by one, where elements with the same image
are related. -/
theorem forall₂_of_map_eq {α β : Type} {f : α → β} {R : α → α → Prop} {l l' : List α}
    (h : l'.map f = l.map f) (hR : ∀ a ∈ l, ∀ a' ∈ l', f a' = f a → R a a') :
    List.Forall₂ R l l' := by
  induction l generalizing l' with
  | nil =>
    obtain rfl := List.map_eq_nil_iff.1 h
    exact .nil
  | cons a l ih =>
    obtain ⟨a', l', rfl, ha, hl⟩ := List.map_eq_cons_iff.1 h
    refine .cons (hR a List.mem_cons_self a' List.mem_cons_self ha) (ih hl fun b hb b' hb' => ?_)
    exact hR b (List.mem_cons_of_mem a hb) b' (List.mem_cons_of_mem a' hb')

/-! ## Channels that reply -/

/-- The request without the metadata that it goes out with. -/
def SentCall.masked (sent : SentCall) : SentCall := { sent with metadata := [] }

theorem SentCall.masked_eq_iff {sent sent' : SentCall} :
    sent'.masked = sent.masked ↔ sent'.method = sent.method ∧ sent'.request = sent.request := by
  simp [masked]

/-- Runs that are the same without metadata. -/
theorem CallRun.masked_eq_iff {α : Type} {run run' : CallRun α} :
    run'.masked = run.masked ↔ run'.result = run.result ∧
      run'.sent.map SentCall.masked = run.sent.map SentCall.masked ∧ run'.logs = run.logs ∧
      run'.observed = run.observed :=
  CallRun.mk.injEq ..  ▸ Iff.rfl

/-- What a channel replies to the last of the requests that it has been sent. -/
abbrev Replies := List SentCall → Reply

/-- Whether the replies do not depend on metadata. -/
def Replies.Blind (replies : Replies) : Prop :=
  ∀ sent sent' : List SentCall, sent.map SentCall.masked = sent'.map SentCall.masked →
    replies sent = replies sent'

namespace ClientCall

/-- The call with another reply. -/
def withReply (reply : Reply) : ClientCall → ClientCall
  | info _ => info reply
  | features refs rows project _ => features refs rows project reply
  | close => close
  | setProject project => setProject project

/-- The reply to a call, if it is one that asks for a reply. -/
def reply? : ClientCall → Option Reply
  | info reply => some reply
  | features _ _ _ reply => some reply
  | _ => none

end ClientCall

/-- The call as it is made, with another reply. -/
def MadeCall.withReply (m : MadeCall) (reply : Reply) : MadeCall :=
  { m with call := m.call.withReply reply }

namespace Client

/-- What a call sends does not depend on the reply. -/
theorem sent_answer_withReply (c : Client) (m : MadeCall) (reply : Reply) :
    (c.answer (m.withReply reply)).sent = (c.answer m).sent := by
  cases hcall : m.call with
  | info reply' =>
    simp only [answer, MadeCall.withReply, hcall, ClientCall.withReply, Session.run]
    exact (call_sent c .info _ (Message.decode? : Bytes → Option InfoResponse) reply).trans
      (call_sent c .info _ (Message.decode? : Bytes → Option InfoResponse) reply').symm
  | features refs rows project reply' =>
    simp only [answer, MadeCall.withReply, hcall, ClientCall.withReply, Session.run]
    cases rows.mapM (Row.build m.environment.now) with
    | error why => rfl
    | ok built =>
      show (c.features _ refs built project reply).sent =
        (c.features _ refs built project reply').sent
      cases hrefs : FeatureReference.ofNatives refs with
      | error why => rw [features, features, hrefs]
      | ok parsed => rw [features_eq hrefs, features_eq hrefs, featuresOf_sent, featuresOf_sent]
  | close => simp only [answer, MadeCall.withReply, hcall, ClientCall.withReply]
  | setProject project => simp only [answer, MadeCall.withReply, hcall, ClientCall.withReply]

theorem clientAfter_withReply (c : Client) (call : ClientCall) (reply : Reply) :
    Session.clientAfter c (call.withReply reply) = Session.clientAfter c call := by
  cases call <;> rfl

/-- The calls with the replies of a channel that has been sent some requests before. -/
def replied (replies : Replies) (c : Client) (before : List SentCall) :
    List MadeCall → List MadeCall
  | [] => []
  | m :: ms =>
    let sent := before ++ (c.answer m).sent
    m.withReply (replies sent) :: replied replies (Session.clientAfter c m.call) sent ms

/-- Each call of a run has the reply of the channel to all that the run sends up to this call. -/
theorem reply_replied (replies : Replies) (s : Session) (before : List SentCall)
    (ms : List MadeCall) (i : Nat) (m : MadeCall)
    (hm : (s.client.replied replies before ms)[i]? = some m) (reply : Reply)
    (hreply : m.call.reply? = some reply) :
    let runs := (s.makeAll (s.client.replied replies before ms)).2
    reply = replies (before ++ (runs.take (i + 1)).flatMap (·.sent)) := by
  induction ms generalizing s before i with
  | nil => cases hm
  | cons m' ms ih =>
    set sent := before ++ (s.client.answer m').sent with hsent
    set replied' := m'.withReply (replies sent) with hreplied
    have hclient : (s.make replied').1.client = Session.clientAfter s.client m'.call :=
      clientAfter_withReply s.client m'.call (replies sent)
    have hrun : (s.make replied').2.sent = (s.client.answer m').sent := by
      rw [← sent_answer_withReply s.client m' (replies sent), ← hreplied, ← Session.run_eq_answer]
      rfl
    intro runs
    have hruns : runs = (s.make replied').2 ::
        ((s.make replied').1.makeAll
          ((s.make replied').1.client.replied replies sent ms)).2 := by
      rw [hclient]
      rfl
    cases i with
    | zero =>
      obtain rfl : replied' = m := Option.some.inj hm
      have hown : reply = replies sent := by
        rw [hreplied, MadeCall.withReply] at hreply
        cases hcall : m'.call <;> rw [hcall] at hreply <;> cases hreply <;> rfl
      rw [hown, hruns, hsent]
      simp [hrun]
    | succ i =>
      have htail := ih (s.make replied').1 sent i (by rw [hclient]; exact hm)
      rw [htail, hruns, List.take_succ_cons, List.flatMap_cons, hrun, ← List.append_assoc]

/-! ## Clients with another token -/

/-- The client with another token. -/
def withToken (c : Client) (token : String) : Client := { c with credentials := some ⟨token⟩ }

section Tokens

variable {t t' : String}

/-- Settings with another token make the same client with the other token, or fail in the same
way. -/
theorem ofSettings_withToken {s : Settings} (hs : s.authToken = some t) (ht : t ≠ "")
    (ht' : t' ≠ "") (e : Environment) : ofSettings e { s with authToken := some t' } =
      (ofSettings e s).map fun (c, logs) => (c.withToken t', logs) := by
  have hroots : (securityOf { s with authToken := some t' }).readRoots e =
      (securityOf s).readRoots e := rfl
  have hcredentials : (securityOf s).credentials = some ⟨t⟩ := by simp [securityOf, hs, ht]
  have hcredentials' : (securityOf { s with authToken := some t' }).credentials = some ⟨t'⟩ := by
    simp [securityOf, ht']
  rw [ofSettings, ofSettings, create, create, Channel.build, Channel.build, hroots, hcredentials,
    hcredentials']
  cases (securityOf s).readRoots e with
  | error why => rfl
  | ok security =>
    simp only [Except.map, createdEntry, hcredentials, hcredentials']
    rfl

theorem clientAfter_withToken (c : Client) (call : ClientCall) :
    Session.clientAfter (c.withToken t') call = (Session.clientAfter c call).withToken t' := by
  cases call <;> rfl

/-- A call on the client with another token is the same, but for metadata. -/
theorem masked_answer_withToken (c : Client) (m : MadeCall) :
    ((c.withToken t').answer m).masked = (c.answer m).masked :=
  masked_answer_congr (show (c.withToken t').Alike c from ⟨rfl, rfl⟩) m

/-- A channel that is blind to metadata gives the client with another token the same replies. -/
theorem replied_withToken {replies : Replies} (hblind : replies.Blind) (c : Client)
    {before before' : List SentCall}
    (hbefore : before'.map SentCall.masked = before.map SentCall.masked) (ms : List MadeCall) :
    (c.withToken t').replied replies before' ms = c.replied replies before ms := by
  induction ms generalizing c before before' with
  | nil => rfl
  | cons m ms ih =>
    have hsent : (before' ++ ((c.withToken t').answer m).sent).map SentCall.masked =
        (before ++ (c.answer m).sent).map SentCall.masked := by
      rw [List.map_append, List.map_append, hbefore]
      rw [(CallRun.masked_eq_iff.1 (masked_answer_withToken c m)).2.1]
    rw [replied, replied, hblind _ _ hsent, clientAfter_withToken, ih _ hsent]

/-- A run of calls on the client with another token is the same, but for metadata. -/
theorem makeAll_withToken (t' : String) (c : Client) (metrics : RpcMetrics) (ms : List MadeCall) :
    let run := (⟨c, metrics⟩ : Session).makeAll ms
    let run' := (⟨c.withToken t', metrics⟩ : Session).makeAll ms
    run'.1 = ⟨run.1.client.withToken t', run.1.metrics⟩ ∧
      run'.2.map CallRun.masked = run.2.map CallRun.masked := by
  induction ms generalizing c metrics with
  | nil => exact ⟨rfl, rfl⟩
  | cons m ms ih =>
    have hmasked : ((⟨c.withToken t', metrics⟩ : Session).make m).2.masked =
        ((⟨c, metrics⟩ : Session).make m).2.masked := by
      simp only [Session.make, Session.run_eq_answer]
      exact masked_answer_withToken c m
    have hmetrics : ((⟨c.withToken t', metrics⟩ : Session).make m).1.metrics =
        ((⟨c, metrics⟩ : Session).make m).1.metrics :=
      congrArg (metrics.recordUntil _ _ _) (CallRun.masked_eq_iff.1 hmasked).2.2.2
    have hsession : ((⟨c.withToken t', metrics⟩ : Session).make m).1 =
        ⟨((⟨c, metrics⟩ : Session).make m).1.client.withToken t',
          ((⟨c, metrics⟩ : Session).make m).1.metrics⟩ := by
      rw [← hmetrics]
      exact congrArg (Session.mk · _) (clientAfter_withToken c m.call)
    obtain ⟨hend, hruns⟩ := ih ((⟨c, metrics⟩ : Session).make m).1.client
      ((⟨c, metrics⟩ : Session).make m).1.metrics
    rw [← hsession] at hend hruns
    exact ⟨hend, congrArg₂ List.cons hmasked hruns⟩

/-- Whatever a run of calls sends goes out with the metadata of the client. -/
theorem metadata_of_mem_makeAll {c : Client} {metrics : RpcMetrics} {ms : List MadeCall}
    {run : CallRun ClientAnswer} (hrun : run ∈ ((⟨c, metrics⟩ : Session).makeAll ms).2)
    {sent : SentCall} (hsent : sent ∈ run.sent) : sent.metadata = c.metadata := by
  obtain ⟨i, hi⟩ := List.mem_iff_getElem?.1 hrun
  rw [Session.getElem?_makeAll] at hi
  obtain ⟨m, -, rfl⟩ := Option.map_eq_some_iff.1 hi
  rw [metadata_of_mem_answer hsent, metadata, credentials_clientAfterAll, metadata]

end Tokens

end Client

/-! ## Runs that only the token tells apart -/

/-- Whether two requests are the same, but that the one goes out with one token and the other with
another. -/
structure SentCall.TokensApart (t t' : String) (sent sent' : SentCall) : Prop where
  method : sent'.method = sent.method
  request : sent'.request = sent.request
  metadata : sent.metadata = [("authorization", "Bearer " ++ t)]
  metadata' : sent'.metadata = [("authorization", "Bearer " ++ t')]

/-- Whether two runs of a call are the same, but for the tokens that their requests go out with. -/
structure CallRun.TokensApart {α : Type} (t t' : String) (run run' : CallRun α) : Prop where
  /-- The answer, or the failure with all that is told of it. -/
  result : run'.result = run.result
  logs : run'.logs = run.logs
  observed : run'.observed = run.observed
  sent : List.Forall₂ (SentCall.TokensApart t t') run.sent run'.sent

theorem CallRun.tokensApart_of_masked {α : Type} {t t' : String} {run run' : CallRun α}
    (h : run'.masked = run.masked)
    (hsent : ∀ sent ∈ run.sent, sent.metadata = [("authorization", "Bearer " ++ t)])
    (hsent' : ∀ sent ∈ run'.sent, sent.metadata = [("authorization", "Bearer " ++ t')]) :
    run.TokensApart t t' run' := by
  obtain ⟨hresult, hcalls, hlogs, hobserved⟩ := CallRun.masked_eq_iff.1 h
  refine ⟨hresult, hlogs, hobserved,
    forall₂_of_map_eq hcalls fun call hcall call' hcall' hmasked => ?_⟩
  obtain ⟨hmethod, hrequest⟩ := SentCall.masked_eq_iff.1 hmasked
  exact ⟨hmethod, hrequest, hsent call hcall, hsent' call' hcall'⟩

namespace Client

/-- Of two settings with different tokens that are otherwise the same, both make a client or both
fail in the same way. The clients have the same channel, are shown the same, and the same is logged
of them. Whatever calls are then made, on a channel that replies without regard to metadata, they
end the same, log the same, count the same and send the same, but that each request goes out with
the entry of the one token in the place of the other's. The same holds of any call that is handed to
the channel with metadata of its own. -/
theorem token_confidential {s : Settings} {t t' : String} (hs : s.authToken = some t) (ht : t ≠ "")
    (ht' : t' ≠ "") {replies : Replies} (hblind : replies.Blind) (e : Environment) :
    let made := ofSettings e s
    let made' := ofSettings e { s with authToken := some t' }
    (∀ why, made = .error why ↔ made' = .error why) ∧
    ∀ c logs, made = .ok (c, logs) → ∃ c', made' = .ok (c', logs) ∧
      c'.channel = c.channel ∧ c'.project = c.project ∧
      c.isAuthenticated = true ∧ c'.isAuthenticated = true ∧
      c'.credentials.map (·.shown) = c.credentials.map (·.shown) ∧
      (∀ metrics ms,
        let run := (⟨c, metrics⟩ : Session).makeAll (c.replied replies [] ms)
        let run' := (⟨c', metrics⟩ : Session).makeAll (c'.replied replies [] ms)
        run'.1.metrics = run.1.metrics ∧ run'.1.client.channel = run.1.client.channel ∧
          List.Forall₂ (CallRun.TokensApart t t') run.2 run'.2) ∧
      ∀ {τ κ ρ α : Type} (proceed : Carrier τ κ ρ α) lists d request,
        ∃ others later,
          proceed.past c.credentials lists d request =
            proceed (lists ++ [others ++ [("authorization", "Bearer " ++ t)]]) later request ∧
          proceed.past c'.credentials lists d request =
            proceed (lists ++ [others ++ [("authorization", "Bearer " ++ t')]]) later request := by
  intro made made'
  have hmade' : made' = made.map fun (c, logs) => (c.withToken t', logs) :=
    ofSettings_withToken hs ht ht' e
  refine ⟨fun why => ?_, fun c logs hmade => ?_⟩
  · rw [hmade', Except.map_eq_error_iff]
  have hcredentials : c.credentials = some ⟨t⟩ := by
    rw [credentials_ofSettings hmade, hs]
    simp [ht]
  have hmetadata : c.metadata = [("authorization", "Bearer " ++ t)] := by
    rw [metadata, hcredentials]
    rfl
  refine ⟨c.withToken t', by rw [hmade', hmade]; rfl, rfl, rfl, ?_, rfl, ?_, ?_, ?_⟩
  · rw [isAuthenticated, hcredentials]
    rfl
  · rw [hcredentials]
    rfl
  · intro metrics ms
    have hreplied : (c.withToken t').replied replies [] ms = c.replied replies [] ms :=
      replied_withToken hblind c rfl ms
    rw [hreplied]
    obtain ⟨hend, hruns⟩ := makeAll_withToken t' c metrics (c.replied replies [] ms)
    refine ⟨congrArg (·.metrics) hend, congrArg (·.client.channel) hend, ?_⟩
    refine forall₂_of_map_eq hruns fun run hrun run' hrun' hmasked => ?_
    refine CallRun.tokensApart_of_masked hmasked (fun sent hsent => ?_) fun sent hsent => ?_
    · rw [metadata_of_mem_makeAll hrun hsent, hmetadata]
    · rw [metadata_of_mem_makeAll hrun' hsent]
      rfl
  · intro τ κ ρ α proceed lists d request
    refine ⟨d.entries lists, { d with metadata := some lists.length }, ?_, ?_⟩
    · rw [hcredentials]
      exact Credentials.intercept_eq ⟨t⟩ proceed lists d request
    · exact Credentials.intercept_eq ⟨t'⟩ proceed lists d request

/-- A server that is not available at first: the failure, the answer and the log are the same with
either of two tokens, and each request has its own. -/
theorem token_confidential_retried :
    let s : Settings := { Settings.default with authToken := some "first" }
    let replies : Replies := fun sent =>
      if sent.length = 1 then .fault (.status (some .unavailable) (some "down"))
        else .response [0x10, 0x01]
    let e : Environment := ⟨.empty, [], ⟨0⟩⟩
    let ms : List MadeCall := [⟨e, ⟨0⟩, .info (.response [])⟩, ⟨e, ⟨0⟩, .info (.response [])⟩]
    ∃ c logs c', ofSettings e s = .ok (c, logs) ∧
      ofSettings e { s with authToken := some "second" } = .ok (c', logs) ∧
      ((Session.start c).makeAll (c.replied replies [] ms)).2.map (·.result) =
        [.error (.remote ⟨"GetFeastServingInfo", .unavailable, "down"⟩),
          .ok (.info ⟨"", 1, "", []⟩)] ∧
      List.Forall₂ (CallRun.TokensApart "first" "second")
        ((Session.start c).makeAll (c.replied replies [] ms)).2
        ((Session.start c').makeAll (c'.replied replies [] ms)).2 := by
  intro s replies e ms
  have hblind : replies.Blind := by
    intro sent sent' hmasked
    have hlength : sent.length = sent'.length := by simpa using congrArg List.length hmasked
    simp only [replies, hlength]
  have hmade : ofSettings e s = .ok (⟨⟨"localhost:6566", .plaintext, 0⟩, some ⟨"first"⟩, ""⟩,
      [⟨.info, .channel, "Opening plaintext channel to localhost:6566"⟩,
        ⟨.info, .client,
          "Feast client created for localhost:6566 (tls=False, authenticated=True)"⟩]) := by
    decide +kernel
  obtain ⟨-, hclients⟩ := token_confidential (show s.authToken = some "first" from rfl) (by decide)
    (show "second" ≠ "" by decide) hblind e
  obtain ⟨c', hmade', -, -, -, -, -, hruns, -⟩ := hclients _ _ hmade
  exact ⟨_, _, c', hmade, hmade', by decide +kernel, (hruns .empty ms).2.2⟩

end Client

end OnlineFeatures
