import OnlineFeatures.Proofs.Client.Answer
import OnlineFeatures.Proofs.Client.Runs
import OnlineFeatures.Proofs.Reference

/-!
# How calls end

In a run of calls on one client each call ends in one of three ways (`Session.makeAll_outcomes`). A
call for features with a malformed reference is refused for the first one, and nothing is issued.
Every other call issues one request. When the transport reports a fault, the call fails with the
same status and details, and whatever else is raised passes through; otherwise the answer is
returned.

How it ends depends on the call with its reply, on the clock, and on the project and the openness of
the client at that moment. The replies to earlier calls change none of these.
-/

namespace OnlineFeatures

namespace Client

/-! ## The ways to end -/

/-- The call is refused for a reference, before anything is issued. -/
structure RefusedFor (bad : String) (run : CallRun ClientAnswer) : Prop where
  refused : ∃ why report, run.result = .error why ∧ why.report? = some report ∧
    report.kind = .invalidArgument ∧ report.context = [("feature_ref", bad)]
  unsent : run.sent = []
  unobserved : run.observed = []

/-- The call fails with a status and details, as an error that is the transport's too. -/
def FailsWith (method : RpcMethod) (code : StatusCode) (details : String)
    (run : CallRun ClientAnswer) : Prop :=
  ∃ failure report, run.result = .error (.remote failure) ∧ failure.code = code ∧
    failure.details = details ∧ (Failure.remote failure).report? = some report ∧
    report.kind = .remoteCall ∧ ErrorFamily.transport ∈ report.kind.families ∧
    report.context = [("method", method.name), ("status_code", code.name)]

/-- The call issues one request. What comes back is an answer if `read?` reads it. -/
structure Issues (c : Client) (method : RpcMethod) (request : Bytes)
    (read? : Bytes → Option (Except Failure ClientAnswer)) (reply : Reply)
    (run : CallRun ClientAnswer) : Prop where
  observed : run.observed.map (·.method) = [method]
  sent : run.sent = if c.channel.isOpen then [⟨method, c.metadata, request⟩] else []
  closed : c.channel.isOpen = false → run.result = .error .closedChannel
  status : c.channel.isOpen = true → ∀ code details, reply = .fault (.status code details) →
    FailsWith method (code.getD .unknown) (details.getD "") run
  bare : c.channel.isOpen = true → ∀ text, reply = .fault (.bare text) →
    FailsWith method .unknown text run
  raised : c.channel.isOpen = true → ∀ what, reply = .raised what →
    run.result = .error (.raised what)
  answered : c.channel.isOpen = true → ∀ content result, reply = .response content →
    read? content = some result → run.result = result
  /-- The transport reports an answer that it cannot read. -/
  unreadable : c.channel.isOpen = true → ∀ content, reply = .response content →
    read? content = none →
    FailsWith method .internal "Exception deserializing response!" run

/-- The answer to a question for information: the message that came. -/
def infoAnswer? (content : Bytes) : Option (Except Failure ClientAnswer) :=
  (Message.decode? content).map fun m : InfoResponse => .ok (.info m)

/-- The answer to a question for features: the rows of the message that came. -/
def featuresAnswer? (now : Double) (content : Bytes) : Option (Except Failure ClientAnswer) :=
  (Message.decode? content).map fun m : FeaturesResponse => (answeredRows now m).map .rows

/-! ## Calls that issue a request -/

theorem failsWith_of_result {method : RpcMethod} {failure : RemoteFailure}
    {run : CallRun ClientAnswer} (hmethod : failure.method = method.name)
    (h : run.result = .error (.remote failure)) :
    FailsWith method failure.code failure.details run := by
  refine ⟨failure, .remoteCall failure, h, rfl, rfl, rfl, rfl, ?_, ?_⟩
  · simp [ErrorReport.remoteCall, FailureKind.families]
  · rw [← hmethod]
    rfl

/-- A run that does one remote call and goes on from its answer. -/
theorem issues_of_call {α : Type} {c : Client} {method : RpcMethod} {request : Bytes}
    {decode? : Bytes → Option α} {reply : Reply} {run : CallRun ClientAnswer}
    {f : α → Except Failure ClientAnswer}
    (hreads : ∀ content, method.reads content = (decode? content).isSome)
    (hsent : run.sent = (c.call method request decode? reply).sent)
    (hobserved : run.observed = (c.call method request decode? reply).observed)
    (hresult : run.result = (c.call method request decode? reply).result.bind f) :
    c.Issues method request (fun content => (decode? content).map f) reply run := by
  have hfails {why : Failure} (hopen : c.channel.isOpen = true) (h : ReplyRaises method reply why) :
      run.result = .error why := by
    rw [hresult, (call_eq_error_iff hopen hreads).2 h]
    rfl
  -- how the call ends is told by its reply alone, so each case is one kind of reply
  constructor
  case observed => rw [hobserved, call_observed]
  case sent => rw [hsent, call_sent]
  case closed =>
    intro hclosed
    rw [hresult, call, if_neg (by simp [hclosed])]
    rfl
  case status =>
    rintro hopen code details rfl
    exact failsWith_of_result rfl (hfails hopen (.fault (.status code details)))
  case bare =>
    rintro hopen text rfl
    exact failsWith_of_result rfl (hfails hopen (.fault (.bare text)))
  case raised =>
    rintro hopen what rfl
    exact hfails hopen (.raised what)
  case answered =>
    rintro hopen content result rfl hanswer
    obtain ⟨a, ha, rfl⟩ := Option.map_eq_some_iff.1 hanswer
    rw [hresult, (call_eq_ok_iff hopen).2 ⟨content, rfl, ha⟩]
    rfl
  case unreadable =>
    rintro hopen content rfl hanswer
    have hunread : method.reads content = false := by
      rw [hreads, Option.map_eq_none_iff.1 hanswer, Option.isSome_none]
    have hmethod : (RemoteFailure.ofFault method.name unreadableAnswer).method = method.name := rfl
    exact failsWith_of_result hmethod (hfails hopen (.unreadable hunread))

theorem issues_info (c : Client) (reply : Reply) :
    c.Issues .info (Message.encode (⟨[]⟩ : InfoRequest)) infoAnswer? reply
      ((c.info reply).map ClientAnswer.info) := by
  refine issues_of_call RpcMethod.reads_info rfl rfl ?_
  rw [CallRun.map, info]
  cases (c.call .info _ (Message.decode? : Bytes → Option InfoResponse) reply).result <;> rfl

theorem issues_features {c : Client} {refs : Native} {parsed : List FeatureReference}
    (hrefs : FeatureReference.ofNatives refs = .ok parsed) (now : Double) (rows : List Row)
    (project : Option String) (reply : Reply) :
    c.Issues .features (Message.encode (c.request parsed rows project)) (featuresAnswer? now) reply
      ((c.features now refs rows project reply).map ClientAnswer.rows) := by
  rw [features_eq hrefs]
  refine issues_of_call RpcMethod.reads_features rfl rfl ?_
  show ((c.call .features _ (Message.decode? : Bytes → Option FeaturesResponse) reply).result.bind
    (answeredRows now)).map ClientAnswer.rows = _
  cases (c.call .features _ (Message.decode? : Bytes → Option FeaturesResponse) reply).result <;>
    rfl

/-! ## Calls that are refused -/

theorem refusedFor_features (c : Client) (type : CollectionType) {names : List String}
    {bad : String} (h : names.find? (FeatureReference.Malformed ·) = some bad) (now : Double)
    (rows : List Row) (project : Option String) (reply : Reply) :
    RefusedFor bad
      ((c.features now (.collection type (names.map .text)) rows project reply).map
        ClientAnswer.rows) := by
  obtain ⟨why, hrefs, hnamed⟩ := FeatureReference.ofNatives_of_find? type h
  rw [features, hrefs]
  refine ⟨⟨.references (.reference why), _, rfl, rfl, rfl, ?_⟩, rfl, rfl⟩
  rw [← hnamed]
  rfl

end Client

/-! ## Runs -/

namespace Session

open FeatureReference (Malformed)
open Client (RefusedFor infoAnswer? featuresAnswer?)

theorem answer_info {m : MadeCall} {reply : Reply} (h : m.call = .info reply) (c : Client) :
    c.answer m = (c.info reply).map ClientAnswer.info := by
  rw [Client.answer, h]
  rfl

theorem answer_features {m : MadeCall} {refs : Native} {rows : List (List SharedRow.Step)}
    {project : Option String} {reply : Reply} {built : List Row}
    (h : m.call = .features refs rows project reply)
    (hbuilt : rows.mapM (Row.build m.environment.now) = .ok built) (c : Client) :
    c.answer m = (c.features m.environment.now refs built project reply).map ClientAnswer.rows := by
  rw [Client.answer, h, run, hbuilt]
  rfl

/-- How every call of a run ends. A call for features by a list of texts is refused for the first
malformed one, and otherwise issues one request, as a question for information does.

A call ends the same in any other run, credentials apart, if it is made by the same clock on a
client with the same project whose channel is open or closed as well. In particular the replies to
earlier calls do not matter, nor do the metrics. -/
theorem makeAll_outcomes (s : Session) (ms : List MadeCall) :
    (s.makeAll ms).2.length = ms.length ∧
    ∀ i m run, ms[i]? = some m → (s.makeAll ms).2[i]? = some run →
      let c := clientAfterAll s.client (ms.take i)
      let now := m.environment.now
      (∀ reply, m.call = .info reply →
        c.Issues .info (Message.encode (⟨[]⟩ : InfoRequest)) infoAnswer? reply run) ∧
      (∀ type (names : List String) rows project reply built,
        m.call = .features (.collection type (names.map .text)) rows project reply →
        rows.mapM (Row.build now) = .ok built →
        (∀ bad, names.find? (Malformed ·) = some bad → RefusedFor bad run) ∧
        ((∀ name ∈ names, ¬ Malformed name) → ∃ refs,
          FeatureReference.ofNatives (.collection type (names.map .text)) = .ok refs ∧
          c.Issues .features (Message.encode (c.request refs built project))
            (featuresAnswer? now) reply
            run)) ∧
      (∀ (s' : Session) (ms' : List MadeCall) (i' : Nat) m' run', ms'[i']? = some m' →
        (s'.makeAll ms').2[i']? = some run' → m'.call = m.call → m'.environment.now = now →
        (clientAfterAll s'.client (ms'.take i')).Alike c → run'.masked = run.masked) ∧
      (∀ metrics (ms' : List MadeCall) m' run', ms'[i]? = some m' →
        ((⟨s.client, metrics⟩ : Session).makeAll ms').2[i]? = some run' →
        m'.call = m.call → m'.environment.now = now →
        List.Forall₂ (fun m m' => SameArguments m.call m'.call) (ms.take i) (ms'.take i) →
        run' = run) := by
  refine ⟨length_makeAll s ms, fun i m run hm hrun => ?_⟩
  -- a call of a run is one on the client that the calls before it leave
  have hanswer {s : Session} {ms : List MadeCall} {i : Nat} {m : MadeCall}
      {run : CallRun ClientAnswer} (hm : ms[i]? = some m) (hrun : (s.makeAll ms).2[i]? = some run) :
      run = (clientAfterAll s.client (ms.take i)).answer m := by
    rw [getElem?_makeAll, hm] at hrun
    exact (Option.some.inj hrun).symm
  have hsame {m' : MadeCall} (c : Client) (hcall : m'.call = m.call)
      (hnow : m'.environment.now = m.environment.now) : c.answer m' = c.answer m := by
    rw [Client.answer, Client.answer, hcall, hnow]
  obtain rfl := hanswer hm hrun
  intro c now
  refine ⟨fun reply hcall => ?_, fun type names rows project reply built hcall hbuilt => ?_, ?_, ?_⟩
  · rw [answer_info hcall]
    exact Client.issues_info c reply
  · rw [answer_features hcall hbuilt]
    constructor
    · intro bad hbad
      exact Client.refusedFor_features c type hbad now built project reply
    · intro hread
      obtain ⟨refs, hrefs⟩ := FeatureReference.ofNatives_of_forall type hread
      exact ⟨refs, hrefs, Client.issues_features hrefs now built project reply⟩
  · intro s' ms' i' m' run' hm' hrun' hcall hnow halike
    rw [hanswer hm' hrun', hsame _ hcall hnow]
    exact Client.masked_answer_congr halike m
  · intro metrics ms' m' run' hm' hrun' hcall hnow hbefore
    rw [hanswer hm' hrun', hsame _ hcall hnow, ← clientAfterAll_congr hbefore]

/-- A fault without a status does not keep the next call from being refused for its second
reference. -/
example :
    let e : Environment := ⟨.empty, [], ⟨0⟩⟩
    let calls : List MadeCall := [⟨e, ⟨0⟩, .info (.fault (.status none none))⟩,
      ⟨e, ⟨0⟩, .features (.list [.text "driver:rating", .text "driver:"]) [] none (.response [])⟩]
    let runs := ((start (.onChannel ⟨"localhost:6566", .plaintext, 0⟩ none "")).makeAll calls).2
    runs.map (·.result) = [.error (.remote ⟨"GetFeastServingInfo", .unknown, ""⟩),
      .error (.references (.reference (.unnamed "driver:")))] ∧
      runs.map (·.sent.length) = [1, 0] := by
  decide +kernel

end Session

end OnlineFeatures
