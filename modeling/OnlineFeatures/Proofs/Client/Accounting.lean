import Mathlib.Data.List.Basic
import OnlineFeatures.Proofs.Client.Runs
import OnlineFeatures.Proofs.Metrics

/-!
# Metrics account for requests

What is recorded of a run are the requests that its calls issued while recording was switched on,
each once, under its method and by how it ended (`Session.makeAll_accounted`). A request that ended
with a signal, which is an exception but no error, stands among those that brought a response
(`Session.signal_counts_as_success`).

The requests of a run are listed from the calls and their replies alone (`Client.issuedAll`). That a
call observes exactly its own request is shown once (`Client.observed_answer`), and all counts
follow.
-/

namespace OnlineFeatures

/-- How a request ended. -/
inductive RequestEnding where
  | response
  | error
  /-- An exception that is no error, such as the one that interrupts a program. -/
  | signal
  deriving DecidableEq, Repr

/-- A request that was issued, and whether recording was switched on. -/
structure IssuedRequest where
  method : RpcMethod
  ending : RequestEnding
  recorded : Bool
  deriving DecidableEq, Repr

/-- The ending as it is counted. -/
def RequestEnding.status : RequestEnding → CallStatus
  | response => .success
  | error => .error
  | signal => .success

namespace Client

/-! ## The requests of a run -/

/-- How a request of a method ends on the channel, with a reply. -/
def endingOf (c : Client) (method : RpcMethod) (reply : Reply) : RequestEnding :=
  if c.channel.isOpen then
    match reply with
    | .response content => if method.reads content then .response else .error
    | .fault _ => .error
    | .raised what => if what.ordinary then .error else .signal
  else .error

/-- The method of the request that a call issues, and how it ends. A call for features whose rows or
references are refused issues none. -/
def request? (c : Client) (now : Double) : ClientCall → Option (RpcMethod × RequestEnding)
  | .info reply => some (.info, c.endingOf .info reply)
  | .features refs rows _ reply =>
    if (rows.mapM (Row.build now)).isOk && (FeatureReference.ofNatives refs).isOk then
      some (.features, c.endingOf .features reply)
    else none
  | .close => none
  | .setProject _ => none

/-- The request that a call issues. -/
def issued? (c : Client) (m : MadeCall) : Option IssuedRequest :=
  (c.request? m.environment.now m.call).map fun (method, ending) =>
    ⟨method, ending, m.environment.metricsEnabled⟩

/-- The requests that calls issue one after another. -/
def issuedAll (c : Client) : List MadeCall → List IssuedRequest
  | [] => []
  | m :: ms => (c.issued? m).toList ++ issuedAll (Session.clientAfter c m.call) ms

/-! ## What is observed -/

theorem call_observed_eq {α : Type} (c : Client) {method : RpcMethod} (request : Bytes)
    {decode? : Bytes → Option α}
    (hreads : ∀ content, method.reads content = (decode? content).isSome) (reply : Reply) :
    (c.call method request decode? reply).observed =
      [⟨method, (c.endingOf method reply).status⟩] := by
  unfold endingOf
  rw [call]
  by_cases hopen : c.channel.isOpen = true
  · rw [if_pos hopen, if_pos hopen]
    cases reply with
    | response content =>
      simp only [hreads, readReply]
      cases decode? content with
      | none => rfl
      | some answer => rfl
    | fault why => rfl
    | raised what =>
      by_cases hordinary : what.ordinary = true
      · simp [readReply, statusOf, Failure.isOrdinary, hordinary, RequestEnding.status]
      · simp [readReply, statusOf, Failure.isOrdinary, hordinary, RequestEnding.status]
  · rw [if_neg hopen, if_neg hopen]
    rfl

/-- What is observed of a call is the request that it issues. -/
theorem observed_answer (c : Client) (m : MadeCall) :
    (c.answer m).observed =
      (c.request? m.environment.now m.call).toList.map fun (method, ending) =>
        ⟨method, ending.status⟩ := by
  rw [answer]
  cases m.call with
  | info reply => exact call_observed_eq c _ RpcMethod.reads_info reply
  | features refs rows project reply =>
    rw [Session.run, request?]
    cases rows.mapM (Row.build m.environment.now) with
    | error why => rfl
    | ok rows =>
      show (c.features _ refs rows project reply).observed = _
      rw [features]
      cases FeatureReference.ofNatives refs with
      | error why => rfl
      | ok refs => exact call_observed_eq c _ RpcMethod.reads_features reply
  | close => rfl
  | setProject project => rfl

end Client

namespace Session

open Client (issuedAll)

/-! ## One call -/

/-- A call records the request that it issues, if recording is switched on. -/
theorem metrics_make (s : Session) (m : MadeCall) :
    (s.make m).1.metrics = match s.client.issued? m with
      | some r => if r.recorded then s.metrics.record r.method.name r.ending.status
          (m.stop.sub m.environment.now) else s.metrics
      | none => s.metrics := by
  show s.metrics.recordUntil m.environment.metricsEnabled m.environment.now m.stop
    (s.run m.environment.now m.call).observed = _
  rw [run_eq_answer, Client.observed_answer, Client.issued?]
  cases s.client.request? m.environment.now m.call with
  | none => rfl
  | some r =>
    show (s.metrics.track m.environment.metricsEnabled ⟨false, false⟩ _).1 = _
    rw [RpcMetrics.track_of_working]
    rfl

theorem complete_make {s : Session} (h : s.metrics.Complete) (m : MadeCall) :
    (s.make m).1.metrics.Complete := by
  rw [metrics_make]
  split
  · split
    · exact h.record _ _ _
    · exact h
  · exact h

theorem countOf_make (s : Session) (m : MadeCall) (name : String) (status : CallStatus) :
    (s.make m).1.metrics.countOf name status = s.metrics.countOf name status +
      (s.client.issued? m).toList.countP fun r =>
        r.recorded ∧ r.method.name = name ∧ r.ending.status = status := by
  rw [metrics_make]
  cases s.client.issued? m with
  | none => rfl
  | some r =>
    by_cases hrecorded : r.recorded = true
    · simp only [hrecorded, if_true, RpcMetrics.countOf_record, Option.toList_some,
        List.countP_singleton, true_and, decide_eq_true_eq]
    · simp [hrecorded]

theorem latencyCount_make {s : Session} (h : s.metrics.Complete) {m : MadeCall}
    (hstart : m.environment.now.isFinite = true) (hstop : m.stop.isFinite = true) (name : String) :
    (s.make m).1.metrics.latencyCount name = s.metrics.latencyCount name +
      (s.client.issued? m).toList.countP fun r => r.recorded ∧ r.method.name = name := by
  have hduration := Double.isNaN_sub hstop hstart
  rw [metrics_make]
  cases s.client.issued? m with
  | none => rfl
  | some r =>
    by_cases hrecorded : r.recorded = true
    · simp only [hrecorded, if_true, RpcMetrics.latencyCount_record h _ _ hduration,
        Option.toList_some, List.countP_singleton, true_and, decide_eq_true_eq]
    · simp [hrecorded]

/-! ## Runs -/

theorem complete_makeAll {s : Session} (h : s.metrics.Complete) (ms : List MadeCall) :
    (s.makeAll ms).1.metrics.Complete := by
  induction ms generalizing s with
  | nil => exact h
  | cons m ms ih => exact ih (complete_make h m)

theorem countOf_makeAll (s : Session) (ms : List MadeCall) (name : String) (status : CallStatus) :
    (s.makeAll ms).1.metrics.countOf name status = s.metrics.countOf name status +
      (issuedAll s.client ms).countP fun r =>
        r.recorded ∧ r.method.name = name ∧ r.ending.status = status := by
  induction ms generalizing s with
  | nil => rfl
  | cons m ms ih =>
    show ((s.make m).1.makeAll ms).1.metrics.countOf name status = _
    rw [ih, countOf_make, issuedAll, List.countP_append, Nat.add_assoc]
    rfl

theorem latencyCount_makeAll {s : Session} (h : s.metrics.Complete) {ms : List MadeCall}
    (hclock : ∀ m ∈ ms, m.environment.now.isFinite = true ∧ m.stop.isFinite = true)
    (name : String) :
    (s.makeAll ms).1.metrics.latencyCount name = s.metrics.latencyCount name +
      (issuedAll s.client ms).countP fun r => r.recorded ∧ r.method.name = name := by
  induction ms generalizing s with
  | nil => rfl
  | cons m ms ih =>
    obtain ⟨hm, hms⟩ := List.forall_mem_cons.1 hclock
    show ((s.make m).1.makeAll ms).1.metrics.latencyCount name = _
    rw [ih (complete_make h m) hms, latencyCount_make h hm.1 hm.2, issuedAll, List.countP_append,
      Nat.add_assoc]
    rfl

theorem metrics_makeAll_of_disabled (s : Session) {ms : List MadeCall}
    (hdisabled : ∀ m ∈ ms, m.environment.metricsEnabled = false) :
    (s.makeAll ms).1.metrics = s.metrics := by
  induction ms generalizing s with
  | nil => rfl
  | cons m ms ih =>
    obtain ⟨hm, hms⟩ := List.forall_mem_cons.1 hdisabled
    have hmake : (s.make m).1.metrics = s.metrics := by
      rw [make, hm, RpcMetrics.recordUntil]
      simp [RpcMetrics.track]
    exact (ih (s.make m).1 hms).trans hmake

/-- What calls come to does not depend on what is recorded of them. -/
theorem runs_makeAll_congr {s s' : Session} (hclient : s'.client = s.client)
    {ms ms' : List MadeCall}
    (h : List.Forall₂ (fun m m' => m'.call = m.call ∧
    m'.environment.now = m.environment.now) ms ms') :
    (s'.makeAll ms').2 = (s.makeAll ms).2 := by
  induction h generalizing s s' with
  | nil => rfl
  | @cons m m' ms ms' hm _ ih =>
    obtain ⟨hcall, hnow⟩ := hm
    have hrun : (s'.make m').2 = (s.make m).2 := by
      show s'.run _ _ = s.run _ _
      rw [run_eq_answer, run_eq_answer, hclient, Client.answer, Client.answer, hcall, hnow]
    have hafter : (s'.make m').1.client = (s.make m).1.client := by
      show clientAfter _ _ = clientAfter _ _
      rw [hclient, hcall]
    exact congrArg₂ List.cons hrun (ih hafter)

/-! ## Endings as they are counted -/

theorem countP_success (l : List IssuedRequest) (name : String) :
    l.countP (fun r => r.recorded ∧ r.method.name = name ∧ r.ending.status = .success) =
      (l.filter (·.recorded)).countP (fun r => r.method.name = name ∧ r.ending = .response) +
        (l.filter (·.recorded)).countP (fun r => r.method.name = name ∧ r.ending = .signal) := by
  induction l with
  | nil => rfl
  | cons r l ih =>
    obtain ⟨method, ending, recorded⟩ := r
    rw [List.countP_cons, ih]
    cases recorded
    · simp
    · cases ending <;> by_cases hname : method.name = name <;>
        simp [RequestEnding.status, hname] <;> omega

theorem countP_error (l : List IssuedRequest) (name : String) :
    l.countP (fun r => r.recorded ∧ r.method.name = name ∧ r.ending.status = .error) =
      (l.filter (·.recorded)).countP fun r => r.method.name = name ∧ r.ending = .error := by
  have hstatus : ∀ ending : RequestEnding, ending.status = .error ↔ ending = .error := by
    intro ending
    cases ending <;> simp [RequestEnding.status]
  rw [List.countP_filter]
  simp only [hstatus, Bool.decide_and, Bool.decide_eq_true, Bool.and_comm]

/-! ## Accounting -/

/-- In any run, after any other, the counts of each method grow by its requests that were issued
while recording was switched on: that of successes by the requests that brought a response or ended
with a signal, that of errors by those that ended with an error, and the number of durations by all
of them, as long as the clock shows numbers. Where recording is switched off, nothing changes, and
whether it is switched on changes nothing about what the calls come to. -/
theorem makeAll_accounted (c : Client) (earlier ms : List MadeCall) :
    let s := ((start c).makeAll earlier).1
    let after := (s.makeAll ms).1.metrics
    let requests := (issuedAll s.client ms).filter (·.recorded)
    (∀ name,
      after.countOf name .success = s.metrics.countOf name .success +
        requests.countP (fun r => r.method.name = name ∧ r.ending = .response) +
        requests.countP (fun r => r.method.name = name ∧ r.ending = .signal) ∧
      after.countOf name .error = s.metrics.countOf name .error +
        requests.countP (fun r => r.method.name = name ∧ r.ending = .error) ∧
      ((∀ m ∈ ms, m.environment.now.isFinite = true ∧ m.stop.isFinite = true) →
        after.latencyCount name = s.metrics.latencyCount name +
          requests.countP (fun r => r.method.name = name))) ∧
    ((∀ m ∈ ms, m.environment.metricsEnabled = false) → after = s.metrics) ∧
    (∀ metrics ms',
      List.Forall₂ (fun m m' => m'.call = m.call ∧ m'.environment.now = m.environment.now) ms ms' →
      ((⟨s.client, metrics⟩ : Session).makeAll ms').2 = (s.makeAll ms).2) := by
  intro s after requests
  have hcomplete : s.metrics.Complete := complete_makeAll RpcMetrics.complete_empty earlier
  refine ⟨fun name => ⟨?_, ?_, fun hclock => ?_⟩, metrics_makeAll_of_disabled s,
    fun metrics ms' h => ?_⟩
  · rw [countOf_makeAll, countP_success, Nat.add_assoc]
  · rw [countOf_makeAll, countP_error]
  · rw [latencyCount_makeAll hcomplete hclock, List.countP_filter]
    simp only [Bool.decide_and, Bool.decide_eq_true, Bool.and_comm]
  · have hclient : (⟨s.client, metrics⟩ : Session).client = s.client := rfl
    exact runs_makeAll_congr hclient h

/-- A request that is interrupted counts as a success. -/
theorem signal_counts_as_success :
    let e : Environment := ⟨.empty, [], ⟨0⟩⟩
    let calls : List MadeCall := [⟨e, ⟨0⟩, .info (.raised ⟨"SystemExit", "", false⟩)⟩]
    let after :=
      ((start (.onChannel ⟨"localhost:6566", .plaintext, 0⟩ none "")).makeAll calls).1.metrics
    e.metricsEnabled = true ∧ after.countOf "GetFeastServingInfo" .error = 0 ∧
      after.countOf "GetFeastServingInfo" .success = 1 := by
  decide +kernel

end Session

end OnlineFeatures
