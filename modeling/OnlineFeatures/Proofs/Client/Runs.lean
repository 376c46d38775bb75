import OnlineFeatures.Proofs.Client.Request

/-!
# Runs of calls

What a reply comes to on an open channel is told without the client (`Client.ReplyRaises`,
`Client.call_eq_error_iff`). A client is called again and again, each time in an environment of its
own and for a time of its own. What a call comes to depends on the client as it stands then, and of
that, credentials apart, on its project and on whether its channel is open
(`Client.masked_answer_congr`): not on the metrics, and on what was done before only as far as the
project was set or the channel closed (`Session.getElem?_makeAll`).
-/

namespace OnlineFeatures

/-! ## Replies on an open channel -/

/-- Whether bytes are an answer of a method. -/
def RpcMethod.reads : RpcMethod → Bytes → Bool
  | info, content => (Message.decode? content : Option InfoResponse).isSome
  | features, content => (Message.decode? content : Option FeaturesResponse).isSome

theorem RpcMethod.reads_info (content : Bytes) :
    info.reads content = (Message.decode? content : Option InfoResponse).isSome := rfl

theorem RpcMethod.reads_features (content : Bytes) :
    features.reads content = (Message.decode? content : Option FeaturesResponse).isSome := rfl

namespace Client

/-- The failures that replies to a request of a method bring. -/
inductive ReplyRaises (method : RpcMethod) : Reply → Failure → Prop where
  | fault (why : RpcFault) : ReplyRaises method (.fault why) (.remote (.ofFault method.name why))
  | unreadable {content : Bytes} (h : method.reads content = false) :
    ReplyRaises method (.response content) (.remote (.ofFault method.name unreadableAnswer))
  | raised (what : Raised) : ReplyRaises method (.raised what) (.raised what)

section Call

variable {α : Type} {c : Client} {method : RpcMethod} {request : Bytes} {decode? : Bytes → Option α}
  {reply : Reply} (hopen : c.channel.isOpen = true)

include hopen

theorem call_eq_ok_iff {answer : α} :
    (c.call method request decode? reply).result = .ok answer ↔
      ∃ content, reply = .response content ∧ decode? content = some answer := by
  rw [call, if_pos hopen]
  cases reply with
  | response content =>
    rw [readReply]
    cases hread : decode? content <;> simp [hread]
  | fault why => simp [readReply]
  | raised what => simp [readReply]

theorem call_eq_error_iff (hreads : ∀ content, method.reads content = (decode? content).isSome)
    {why : Failure} :
    (c.call method request decode? reply).result = .error why ↔ ReplyRaises method reply why := by
  rw [call, if_pos hopen]
  -- a response fails only in being read; any other reply is a failure of its own
  cases reply with
  | response content =>
    rw [readReply]
    cases hread : decode? content with
    | none =>
      constructor
      · rintro ⟨⟩
        exact .unreadable (by rw [hreads, hread, Option.isSome_none])
      · rintro ⟨⟩
        rfl
    | some answer =>
      constructor
      · rintro ⟨⟩
      · rintro (_ | hunread)
        rw [hreads, hread] at hunread
        cases hunread
  | fault why =>
    constructor
    · rintro ⟨⟩
      exact .fault why
    · rintro ⟨⟩
      rfl
  | raised what =>
    constructor
    · rintro ⟨⟩
      exact .raised what
    · rintro ⟨⟩
      rfl

end Call

end Client

/-! ## Calls one after another -/

/-- A call as it is made: the environment it starts in, the clock when it ends, and the call. -/
structure MadeCall where
  environment : Environment
  stop : Double
  call : ClientCall

/-- Records what is counted of a call, which takes from one time of the clock to another. -/
def RpcMetrics.recordUntil (m : RpcMetrics) (enabled : Bool) (start stop : Double)
    (os : List Observation) : RpcMetrics :=
  os.foldl (fun m o =>
    (m.track enabled ⟨false, false⟩ ⟨o.method.name, start, stop, o.status⟩).1) m

/-- What a call on a client comes to. -/
def Client.answer (c : Client) (m : MadeCall) : CallRun ClientAnswer :=
  (Session.start c).run m.environment.now m.call

namespace Session

/-- Does a call that takes its time. -/
def make (s : Session) (m : MadeCall) : Session × CallRun ClientAnswer :=
  let r := s.run m.environment.now m.call
  (⟨clientAfter s.client m.call,
    s.metrics.recordUntil m.environment.metricsEnabled m.environment.now m.stop r.observed⟩, r)

/-- A call during which the clock stands still is a step of the session. -/
theorem make_eq_step (s : Session) (e : Environment) (call : ClientCall) :
    s.make ⟨e, e.now, call⟩ = s.step e call := rfl

/-- Does calls one after another. -/
def makeAll (s : Session) : List MadeCall → Session × List (CallRun ClientAnswer)
  | [] => (s, [])
  | m :: ms =>
    let (s, r) := s.make m
    let (s, rs) := s.makeAll ms
    (s, r :: rs)

/-! ## The client along a run -/

/-- The client after calls. -/
def clientAfterAll (c : Client) (ms : List MadeCall) : Client :=
  ms.foldl (fun c m => clientAfter c m.call) c

/-- Metrics do not matter to what a call comes to. -/
theorem run_eq_answer (s : Session) (m : MadeCall) :
    s.run m.environment.now m.call = s.client.answer m := by
  rw [Client.answer]
  cases m.call <;> rfl

theorem length_makeAll (s : Session) (ms : List MadeCall) :
    (s.makeAll ms).2.length = ms.length := by
  induction ms generalizing s with
  | nil => rfl
  | cons m ms ih => exact congrArg (· + 1) (ih (s.make m).1)

/-- A call of a run comes to what it comes to on the client that the calls before it leave. -/
theorem getElem?_makeAll (s : Session) (ms : List MadeCall) (i : Nat) :
    (s.makeAll ms).2[i]? = ms[i]?.map (clientAfterAll s.client (ms.take i)).answer := by
  induction ms generalizing s i with
  | nil => rfl
  | cons m ms ih =>
    cases i with
    | zero => exact congrArg some (run_eq_answer s m)
    | succ i => exact ih (s.make m).1 i

/-! ## Calls and their replies -/

/-- Whether two calls are the same but for what the channel replies. -/
def SameArguments (call call' : ClientCall) : Prop :=
  match call, call' with
  | .info _, .info _ => True
  | .features refs rows project _, .features refs' rows' project' _ =>
    refs = refs' ∧ rows = rows' ∧ project = project'
  | .close, .close => True
  | .setProject project, .setProject project' => project = project'
  | _, _ => False

theorem clientAfter_congr {call call' : ClientCall} (h : SameArguments call call') (c : Client) :
    clientAfter c call = clientAfter c call' := by
  cases call <;> cases call'
  case setProject.setProject => exact congrArg (fun project => { c with project }) h
  all_goals first | rfl | exact h.elim

/-- The client does not depend on replies. -/
theorem clientAfterAll_congr {ms ms' : List MadeCall}
    (h : List.Forall₂ (fun m m' => SameArguments m.call m'.call) ms ms') (c : Client) :
    clientAfterAll c ms = clientAfterAll c ms' := by
  induction h generalizing c with
  | nil => rfl
  | cons hcall _ ih =>
    rw [clientAfterAll, List.foldl_cons, clientAfter_congr hcall c]
    exact ih _

end Session

/-! ## What a call depends on -/

namespace CallRun

variable {α β : Type}

/-- The run without the metadata that its requests went out with. -/
def masked (r : CallRun α) : CallRun α := { r with sent := r.sent.map ({ · with metadata := [] }) }

theorem masked_andThen (f : α → Except Failure β) (r : CallRun α) :
    (r.andThen f).masked = r.masked.andThen f := rfl

end CallRun

namespace Client

/-- Of two clients with the same project, either both can send or neither can. -/
structure Alike (c c' : Client) : Prop where
  project : c.project = c'.project
  isOpen : c.channel.isOpen = c'.channel.isOpen

section Alike

variable {c c' : Client} (h : c.Alike c')

include h

theorem masked_call_congr {α : Type} (method : RpcMethod) (request : Bytes)
    (decode? : Bytes → Option α) (reply : Reply) :
    (c.call method request decode? reply).masked =
      (c'.call method request decode? reply).masked := by
  rw [call, call, h.isOpen]
  by_cases hopen : c'.channel.isOpen = true
  · rw [if_pos hopen, if_pos hopen]
    cases readReply decode? reply with
    | ok answer => rfl
    | error why => cases why <;> rfl
  · rw [if_neg hopen, if_neg hopen]

theorem masked_featuresOf_congr (now : Double) (refs : List FeatureReference) (rows : List Row)
    (project : Option String) (reply : Reply) :
    (c.featuresOf now refs rows project reply).masked =
      (c'.featuresOf now refs rows project reply).masked := by
  have hrequest : c.request refs rows project = c'.request refs rows project := by
    rw [request, request, h.project]
  have hcall := masked_call_congr h .features (Message.encode (c'.request refs rows project))
    (Message.decode? : Bytes → Option FeaturesResponse) reply
  have hrun := congrArg (CallRun.andThen · (answeredRows now)) hcall
  rw [← CallRun.masked_andThen, ← CallRun.masked_andThen] at hrun
  simp only [CallRun.masked, CallRun.mk.injEq] at hrun
  simp only [featuresOf, CallRun.masked, hrequest, hrun]

theorem masked_features_congr (now : Double) (refs : Native) (rows : List Row)
    (project : Option String) (reply : Reply) :
    (c.features now refs rows project reply).masked =
      (c'.features now refs rows project reply).masked := by
  rw [features, features]
  cases FeatureReference.ofNatives refs with
  | ok refs => exact masked_featuresOf_congr h now refs rows project reply
  | error why => rfl

/-- Credentials apart, a call comes to the same on clients that are alike. -/
theorem masked_answer_congr (m : MadeCall) :
    (c.answer m).masked = (c'.answer m).masked := by
  rw [answer, answer]
  cases m.call with
  | info reply =>
    exact congrArg (CallRun.map ClientAnswer.info)
      (masked_call_congr h .info _ Message.decode? reply)
  | features refs rows project reply =>
    rw [Session.run, Session.run]
    cases rows.mapM (Row.build m.environment.now) with
    | ok rows =>
      exact congrArg (CallRun.map ClientAnswer.rows)
        (masked_features_congr h _ refs rows project reply)
    | error why => rfl
  | close => rfl
  | setProject project => rfl

end Alike

end Client

end OnlineFeatures
