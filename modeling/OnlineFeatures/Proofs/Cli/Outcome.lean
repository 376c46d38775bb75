import OnlineFeatures.Proofs.Cli.Connect
import OnlineFeatures.Proofs.Cli.Entities
import OnlineFeatures.Proofs.Client.Runs

/-!
# How runs of the program end

A run opens a channel unless the settings are invalid or a certificate is missing, closes it once,
and sends at most one request (`Program.run_outcome`). What a run can fail with is told stage by
stage, without the program (`Program.Raises`): making the client, reading the entities and the
references, the reply, and the rows of the answer. No two of these happen in one run, and the kind
of the one that does decides the end: four kinds are reported with the exit code 1, all others leave
the run, and without any the answer is printed.
-/

namespace OnlineFeatures

theorem Except.bind_eq_error_iff {ε α β : Type} {o : Except ε α} {f : α → Except ε β} {e : ε} :
    o.bind f = .error e ↔ o = .error e ∨ ∃ a, o = .ok a ∧ f a = .error e := by
  cases o <;> simp [Except.bind]

/-- The project that a command names. -/
def Command.project? : Command → Option String
  | .info => none
  | .get _ _ project => project

namespace Program

/-! ## What can go wrong -/

/-- The requests that a command leads to: one, unless its entities or references are refused. -/
inductive Requests (e : Environment) : Command → RpcMethod → Prop where
  | info : Requests e .info .info
  | features {features entities : List String} {project : Option String} {rows : List Row}
    {refs : List FeatureReference} (hrows : Entities.rows e.now entities = .ok rows)
    (hrefs : FeatureReference.ofNatives (.list (features.map .text)) = .ok refs) :
    Requests e (.get features entities project) .features

/-- The failures that a command meets on an open channel. -/
inductive CommandRaises (e : Environment) (reply : Reply) : Command → Failure → Prop where
  | entity {features entities : List String} {project : Option String} {why : Failure}
    (h : Entities.rows e.now entities = .error why) :
    CommandRaises e reply (.get features entities project) why
  | reference {features entities : List String} {project : Option String} {rows : List Row}
    {why : ReferencesFault} (hrows : Entities.rows e.now entities = .ok rows)
    (h : FeatureReference.ofNatives (.list (features.map .text)) = .error why) :
    CommandRaises e reply (.get features entities project) (.references why)
  | reply {command : Command} {method : RpcMethod} {why : Failure} (h : Requests e command method)
    (hreply : Client.ReplyRaises method reply why) : CommandRaises e reply command why
  | answer {command : Command} {content : Bytes} {answer : FeaturesResponse} {why : Failure}
    (h : Requests e command .features) (hreply : reply = .response content)
    (hanswer : Message.decode? content = some answer)
    (hrows : Client.answeredRows e.now answer = .error why) : CommandRaises e reply command why

/-- The failures that a run meets. -/
inductive Raises (a : Arguments) (e : Environment) (reply : Reply) : Failure → Prop where
  | settings {why : SettingsFault} (h : Settings.load [] e = .error why) :
    Raises a e reply (.settings why)
  | certificate {s : Settings} {path : String} (hs : Settings.load [] e = .ok s)
    (h : s.MissingCertificate e path) : Raises a e reply (.missingFile path)
  | command {why : Failure} (hconnects : Connects e) (h : CommandRaises e reply a.command why) :
    Raises a e reply why

/-! ## One command -/

theorem ask_info_eq_error_iff {c : Client} (hopen : c.channel.isOpen = true) (e : Environment)
    {reply : Reply} {why : Failure} :
    (ask c e reply .info).result = .error why ↔ Client.ReplyRaises .info reply why := by
  have hask : (ask c e reply .info).result =
      (c.info reply).result.bind fun m => .ok (printed (infoJson m)) := rfl
  rw [hask, Except.bind_eq_error_iff, Client.info,
    Client.call_eq_error_iff hopen RpcMethod.reads_info]
  simp

theorem featuresOf_eq_error_iff {c : Client} (hopen : c.channel.isOpen = true) {now : Double}
    {refs : List FeatureReference} {rows : List Row} {project : Option String} {reply : Reply}
    {why : Failure} :
    (c.featuresOf now refs rows project reply).result = .error why ↔
      Client.ReplyRaises .features reply why ∨ ∃ content answer, reply = .response content ∧
        Message.decode? content = some answer ∧ Client.answeredRows now answer = .error why := by
  have hresult : (c.featuresOf now refs rows project reply).result =
      (c.call .features (Message.encode (c.request refs rows project)) Message.decode?
        reply).result.bind
        (Client.answeredRows now) := rfl
  rw [hresult, Except.bind_eq_error_iff, Client.call_eq_error_iff hopen RpcMethod.reads_features]
  simp only [Client.call_eq_ok_iff hopen]
  refine or_congr_right ⟨?_, ?_⟩
  · rintro ⟨answer, ⟨content, hreply, hanswer⟩, hrows⟩
    exact ⟨content, answer, hreply, hanswer, hrows⟩
  · rintro ⟨content, answer, hreply, hanswer, hrows⟩
    exact ⟨answer, ⟨content, hreply, hanswer⟩, hrows⟩

section Get

variable {c : Client} {e : Environment} {reply : Reply} {features entities : List String}
  {project : Option String}

theorem ask_of_rows_error {why : Failure} (hrows : Entities.rows e.now entities = .error why) :
    ask c e reply (.get features entities project) = .failed why := by
  rw [ask, hrows]

theorem ask_of_refs_error {rows : List Row} {why : ReferencesFault}
    (hrows : Entities.rows e.now entities = .ok rows)
    (hrefs : FeatureReference.ofNatives (.list (features.map .text)) = .error why) :
    ask c e reply (.get features entities project) = .failed (.references why) := by
  rw [ask, hrows]
  show (c.features e.now (.list (features.map .text)) rows project reply).andThen _ = _
  rw [Client.features, hrefs]
  rfl

theorem ask_of_request {rows : List Row} {refs : List FeatureReference}
    (hrows : Entities.rows e.now entities = .ok rows)
    (hrefs : FeatureReference.ofNatives (.list (features.map .text)) = .ok refs) :
    ask c e reply (.get features entities project) =
      (c.featuresOf e.now refs rows project reply).andThen fun rows =>
        .ok (printed (.array (rows.map (·.json)))) := by
  rw [ask, hrows]
  show (c.features e.now (.list (features.map .text)) rows project reply).andThen _ = _
  rw [Client.features, hrefs]

end Get

/-- A command fails with what its stages raise. -/
theorem ask_eq_error_iff {c : Client} (hopen : c.channel.isOpen = true) {e : Environment}
    {reply : Reply} {command : Command} {why : Failure} :
    (ask c e reply command).result = .error why ↔ CommandRaises e reply command why := by
  cases command with
  | info =>
    rw [ask_info_eq_error_iff hopen]
    constructor
    · exact .reply .info
    · intro h
      cases h with
      | reply hrequests hreply => cases hrequests; exact hreply
      | answer hrequests => cases hrequests
  | get features entities project =>
    -- a stage is reached when all before it succeed, so the others contradict how far the run came
    cases hrows : Entities.rows e.now entities with
    | error fault =>
      rw [ask_of_rows_error hrows]
      constructor
      · rintro ⟨⟩
        exact .entity hrows
      · intro h
        cases h with
        | entity h => cases hrows.symm.trans h; rfl
        | reference h => cases hrows.symm.trans h
        | reply hrequests => cases hrequests with | features h => cases hrows.symm.trans h
        | answer hrequests => cases hrequests with | features h => cases hrows.symm.trans h
    | ok rows =>
      cases hrefs : FeatureReference.ofNatives (.list (features.map .text)) with
      | error fault =>
        rw [ask_of_refs_error hrows hrefs]
        constructor
        · rintro ⟨⟩
          exact .reference hrows hrefs
        · intro h
          cases h with
          | entity h => cases hrows.symm.trans h
          | reference _ h => cases hrefs.symm.trans h; rfl
          | reply hrequests => cases hrequests with | features _ h => cases hrefs.symm.trans h
          | answer hrequests => cases hrequests with | features _ h => cases hrefs.symm.trans h
      | ok refs =>
        have hrequests : Requests e (.get features entities project) .features :=
          .features hrows hrefs
        rw [ask_of_request hrows hrefs, CallRun.andThen, Except.bind_eq_error_iff,
          featuresOf_eq_error_iff hopen]
        constructor
        · rintro ((hreply | ⟨content, answer, hreply, hanswer, hfails⟩) | ⟨-, -, ⟨⟩⟩)
          · exact .reply hrequests hreply
          · exact .answer hrequests hreply hanswer hfails
        · intro h
          cases h with
          | entity h => cases hrows.symm.trans h
          | reference _ h => cases hrefs.symm.trans h
          | reply hmethod hreply => cases hmethod; exact .inl (.inl hreply)
          | answer _ hreply hanswer hfails => exact .inl (.inr ⟨_, _, hreply, hanswer, hfails⟩)

/-! ## What is sent -/

/-- A command leads to requests of one method. -/
theorem Requests.unique {e : Environment} {command : Command} {method method' : RpcMethod}
    (h : Requests e command method) (h' : Requests e command method') : method = method' := by
  cases h <;> cases h' <;> rfl

theorem Requests.not_malformed {e : Environment} {features entities : List String}
    {project : Option String} {method : RpcMethod}
    (h : Requests e (.get features entities project) method) :
    (∀ entity ∈ entities, ¬ Entities.Malformed entity) ∧
      ∀ ref ∈ features, ¬ FeatureReference.Malformed ref := by
  cases h with
  | features hrows hrefs =>
    exact ⟨Entities.not_malformed_of_rows hrows, FeatureReference.not_malformed_of_ofNatives hrefs⟩

/-- A command sends the request that it leads to, if it leads to one and the channel is open. -/
theorem ask_sends (c : Client) (e : Environment) (reply : Reply) (command : Command) :
    ((∀ method, ¬ Requests e command method) ∧ (ask c e reply command).sent = []) ∨
      ∃ sent, (ask c e reply command).sent = (if c.channel.isOpen then [sent] else []) ∧
        Requests e command sent.method ∧ sent.metadata = c.metadata ∧
        (sent.method = .features → ∃ refs rows, (∀ r ∈ rows, r.Reachable) ∧
          sent.request = Message.encode (c.request refs rows command.project?)) := by
  cases command with
  | info =>
    exact .inr ⟨⟨.info, c.metadata, Message.encode (⟨[]⟩ : InfoRequest)⟩,
      Client.call_sent c .info _ (Message.decode? : Bytes → Option InfoResponse) reply, .info, rfl,
      by rintro ⟨⟩⟩
  | get features entities project =>
    -- a request is made only when both the entities and the references can be read
    cases hrows : Entities.rows e.now entities with
    | error why =>
      refine .inl ⟨?_, by rw [ask_of_rows_error hrows]; rfl⟩
      intro method h
      cases h with
      | features h => cases hrows.symm.trans h
    | ok rows =>
      cases hrefs : FeatureReference.ofNatives (.list (features.map .text)) with
      | error why =>
        refine .inl ⟨?_, by rw [ask_of_refs_error hrows hrefs]; rfl⟩
        intro method h
        cases h with
        | features _ h => cases hrefs.symm.trans h
      | ok refs =>
        refine .inr ⟨⟨.features, c.metadata, Message.encode (c.request refs rows project)⟩, ?_,
          .features hrows hrefs, rfl, fun _ => ⟨refs, rows, Entities.reachable_of_rows hrows, rfl⟩⟩
        rw [ask_of_request hrows hrefs]
        exact Client.featuresOf_sent c e.now refs rows project reply

/-- A command sends at most one request, and none when an argument is malformed. -/
theorem ask_sent (c : Client) (e : Environment) (reply : Reply) (command : Command) :
    (ask c e reply command).sent.length ≤ 1 ∧
      ∀ features entities project, command = .get features entities project →
        (∃ entity ∈ entities, Entities.Malformed entity) ∨
          (∃ ref ∈ features, FeatureReference.Malformed ref) →
        (ask c e reply command).sent = [] := by
  rcases ask_sends c e reply command with ⟨-, hnil⟩ | ⟨sent, hsent, hrequests, -⟩
  · rw [hnil]
    exact ⟨Nat.zero_le 1, fun _ _ _ _ _ => rfl⟩
  · refine ⟨by rw [hsent]; split <;> simp, ?_⟩
    rintro features entities project rfl hmalformed
    obtain ⟨hentities, hrefs⟩ := hrequests.not_malformed
    rcases hmalformed with ⟨entity, hentity, h⟩ | ⟨ref, href, h⟩
    · exact absurd h (hentities entity hentity)
    · exact absurd h (hrefs ref href)

/-! ## What is printed -/

theorem printed_ne_empty (j : Json) : printed j ≠ "" := by
  intro h
  have htext := congrArg String.toList h
  simp [printed] at htext

theorem ask_ne_empty {c : Client} {e : Environment} {reply : Reply} {command : Command}
    {output : String} (h : (ask c e reply command).result = .ok output) : output ≠ "" := by
  have hprinted {α : Type} {o : Except Failure α} {f : α → Json}
      (h : o.bind (fun a => .ok (printed (f a))) = .ok output) : output ≠ "" := by
    cases o with
    | error why => cases h
    | ok a =>
      cases h
      exact printed_ne_empty _
  cases command with
  | info => exact hprinted h
  | get features entities project =>
    rw [ask] at h
    cases hrows : Entities.rows e.now entities with
    | error why =>
      rw [hrows] at h
      cases h
    | ok rows =>
      rw [hrows] at h
      exact hprinted h

/-! ## What a run meets -/

theorem raises_iff_of_connect {a : Arguments} {e : Environment} {c : Client}
    {opened : List LogEntry} (h : connect a e = .ok (c, opened)) {reply : Reply} {why : Failure} :
    Raises a e reply why ↔ (ask c e reply a.command).result = .error why := by
  obtain ⟨⟨s, hload, hnone⟩, hclosed⟩ := of_connect_ok h
  have hopen : c.channel.isOpen = true := by simp [Channel.isOpen, hclosed]
  rw [ask_eq_error_iff hopen]
  constructor
  · intro hraises
    cases hraises with
    | settings h => cases hload.symm.trans h
    | certificate hs h =>
      cases hload.symm.trans hs
      exact absurd h (hnone _)
    | command _ h => exact h
  · exact .command ⟨s, hload, hnone⟩

theorem raises_iff_of_not_connect {a : Arguments} {e : Environment} {fault : Failure}
    (h : connect a e = .error fault) {reply : Reply} {why : Failure} :
    Raises a e reply why ↔ why = fault := by
  have hnot := of_connect_error h
  rcases connect_cases a e with ⟨fault', hload, hfails⟩ | ⟨s, path, hload, hmissing, hfails⟩ |
    ⟨hconnects, -⟩
  · cases hfails.symm.trans h
    constructor
    · intro hraises
      cases hraises with
      | settings h => cases hload.symm.trans h; rfl
      | certificate hs => cases hload.symm.trans hs
      | command hconnects => exact absurd hconnects hnot
    · rintro rfl
      exact .settings hload
  · cases hfails.symm.trans h
    constructor
    · intro hraises
      cases hraises with
      | settings h => cases hload.symm.trans h
      | certificate hs h =>
        cases hload.symm.trans hs
        rw [Option.some.inj (hmissing.2.1.symm.trans h.2.1)]
      | command hconnects => exact absurd hconnects hnot
    · rintro rfl
      exact .certificate hload hmissing
  · exact absurd hconnects hnot

/-! ## Reported kinds -/

/-- The kinds of failures that are reported with an exit code. -/
def reportedKinds : List FailureKind :=
  [.invalidArgument, .unsupportedType, .remoteCall, .badArgument]

theorem kind_ne_client (why : Failure) : why.kind ≠ .client := by
  cases why with
  | conversion why => cases why <;> simp [Failure.kind, Failure.conversionKind]
  | inference why => cases why <;> simp [Failure.kind]
  | status why => cases why <;> simp [Failure.kind]
  | moment why =>
    cases why with
    | notWhole why => cases why <;> simp [Failure.kind]
    | _ => simp [Failure.kind]
  | references why => cases why <;> simp [Failure.kind]
  | settings why => cases why <;> simp [Failure.kind, Failure.settingsKind]
  | _ => simp [Failure.kind]

theorem isReported_iff (why : Failure) : isReported why = true ↔ why.kind ∈ reportedKinds := by
  have hclient := kind_ne_client why
  rw [isReported]
  cases hkind : why.kind with
  | client => exact absurd hkind hclient
  | _ => simp [reportedKinds]

theorem kind_of_not_connect {a : Arguments} {e : Environment} {why : Failure}
    (h : connect a e = .error why) : why.kind ∉ reportedKinds := by
  rcases connect_cases a e with ⟨fault, -, hfails⟩ | ⟨s, path, -, -, hfails⟩ | ⟨-, _, _, hmade, -⟩
  · cases hfails.symm.trans h
    cases fault <;> simp [Failure.kind, Failure.settingsKind, reportedKinds]
  · cases hfails.symm.trans h
    simp [Failure.kind, reportedKinds]
  · cases hmade.symm.trans h

/-! ## Ends -/

/-- A run ends with what it prints, or with the one failure that it meets. -/
theorem runWith_ending (a : Arguments) (e : Environment) (reply : Reply) :
    let r := runWith a e reply
    ((∀ why, ¬ Raises a e reply why) ∧ r.ending = .exit 0 ∧ r.output ≠ "") ∨
      ∃ why, (∀ why', Raises a e reply why' ↔ why' = why) ∧ r.output = "" ∧
        r.ending = if why.kind ∈ reportedKinds then .exit 1 else .failed why := by
  intro r
  -- a failure to connect is of no reported kind; all others come from what is asked
  cases hconnect : connect a e with
  | error fault =>
    have hr : r = endedEarly fault := runWith_of_not_connect hconnect reply
    refine .inr ⟨fault, fun why => raises_iff_of_not_connect hconnect, by rw [hr]; rfl, ?_⟩
    rw [hr, if_neg (kind_of_not_connect hconnect)]
    rfl
  | ok made =>
    obtain ⟨c, opened⟩ := made
    obtain ⟨logs, hr⟩ := runWith_of_connect hconnect reply
    have hraises (why : Failure) := @raises_iff_of_connect a e c opened hconnect reply why
    change r = _ at hr
    rw [hr, runClient]
    cases hresult : (ask c e reply a.command).result with
    | ok output =>
      refine .inl ⟨fun why h => ?_, rfl, ask_ne_empty hresult⟩
      cases hresult.symm.trans ((hraises why).1 h)
    | error why =>
      refine .inr ⟨why, fun why' => ?_, ?_, ?_⟩
      · rw [hraises, hresult]
        exact ⟨fun h => (Except.error.inj h).symm, fun h => by rw [h]⟩
      · simp only
        split <;> rfl
      · simp only [isReported_iff]
        split <;> rfl

/-- The channel of a run is closed once, and it sends what its command sends. -/
theorem runWith_channels (a : Arguments) (e : Environment) (reply : Reply) :
    let r := runWith a e reply
    (¬ Connects e ∧ r.channels = [] ∧ r.sent = []) ∨
      Connects e ∧ ∃ c : Client, (∃ channel, r.channels = [channel] ∧ channel.closed = 1) ∧
        r.sent = (ask c e reply a.command).sent := by
  intro r
  cases hconnect : connect a e with
  | error why =>
    have hr : r = endedEarly why := runWith_of_not_connect hconnect reply
    rw [hr]
    exact .inl ⟨of_connect_error hconnect, rfl, rfl⟩
  | ok made =>
    obtain ⟨c, opened⟩ := made
    obtain ⟨hconnects, hclosed⟩ := of_connect_ok hconnect
    obtain ⟨logs, hr⟩ := runWith_of_connect hconnect reply
    change r = _ at hr
    rw [hr]
    refine .inr ⟨hconnects, c, ⟨c.close.channel, channels_runClient c opened e reply a.command, ?_⟩,
      sent_runClient c opened e reply a.command⟩
    show c.channel.closed + 1 = 1
    rw [hclosed]

/-- A run on arguments that can be read opens a channel exactly when the settings are valid and TLS
lacks no certificate, and closes it once. It sends at most one request, and none when an entity or a
reference is malformed. It prints exactly when it ends with the exit code 0, which is when it meets
no failure. It ends with the exit code 1 exactly when it meets a failure of one of the reported
kinds, and every other failure leaves it. -/
theorem run_outcome {words : List String} {a : Arguments} (hread : Arguments.read words = .ok a)
    (e : Environment) (reply : Reply) :
    ∃ r, run words e reply = .ok r ∧
      r.channels.length ≤ 1 ∧ (r.channels = [] ↔ ¬ Connects e) ∧
      (∀ channel ∈ r.channels, channel.closed = 1) ∧
      r.sent.length ≤ 1 ∧
      (∀ features entities project, a.command = .get features entities project →
        (∃ entity ∈ entities, Entities.Malformed entity) ∨
          (∃ ref ∈ features, FeatureReference.Malformed ref) → r.sent = []) ∧
      (r.output ≠ "" ↔ r.ending = .exit 0) ∧
      (r.ending = .exit 0 ↔ ∀ why, ¬ Raises a e reply why) ∧
      (r.ending = .exit 1 ↔ ∃ why, Raises a e reply why ∧ why.kind ∈ reportedKinds) ∧
      ∀ why, r.ending = .failed why ↔ Raises a e reply why ∧ why.kind ∉ reportedKinds := by
  refine ⟨runWith a e reply, by rw [run, hread]; rfl, ?_⟩
  -- what is claimed of the run follows from how it ends and which channel and calls it has
  have hending := runWith_ending a e reply
  have hchannels := runWith_channels a e reply
  generalize runWith a e reply = r at hending hchannels
  -- the first five parts are about the channel and the calls, the others about the end
  refine ⟨?_, ?_, ?_, ?_, ?_, ?_, ?_, ?_, ?_⟩
  · rcases hchannels with ⟨-, hnone, -⟩ | ⟨-, c, ⟨channel, hone, -⟩, -⟩
    · simp [hnone]
    · simp [hone]
  · rcases hchannels with ⟨hnot, hnone, -⟩ | ⟨hconnects, c, ⟨channel, hone, -⟩, -⟩
    · exact ⟨fun _ => hnot, fun _ => hnone⟩
    · simp [hone, hconnects]
  · rcases hchannels with ⟨-, hnone, -⟩ | ⟨-, c, ⟨channel, hone, hclosed⟩, -⟩
    · simp [hnone]
    · simp [hone, hclosed]
  · rcases hchannels with ⟨-, -, hsent⟩ | ⟨-, c, -, hsent⟩
    · simp [hsent]
    · rw [hsent]
      exact (ask_sent c e reply a.command).1
  · intro features entities project hcommand hmalformed
    rcases hchannels with ⟨-, -, hsent⟩ | ⟨-, c, -, hsent⟩
    · exact hsent
    · rw [hsent]
      exact (ask_sent c e reply a.command).2 features entities project hcommand hmalformed
  · rcases hending with ⟨-, hexit, houtput⟩ | ⟨why, -, houtput, hend⟩
    · simp [hexit, houtput]
    · rw [houtput, hend]
      split <;> simp
  · rcases hending with ⟨hnone, hexit, -⟩ | ⟨why, hraises, -, hend⟩
    · exact ⟨fun _ => hnone, fun _ => hexit⟩
    · rw [hend]
      constructor
      · intro h
        split at h <;> simp at h
      · intro h
        exact absurd ((hraises why).2 rfl) (h why)
  · rcases hending with ⟨hnone, hexit, -⟩ | ⟨why, hraises, -, hend⟩
    · simp [hnone, hexit]
    · simp only [hraises, exists_eq_left, hend]
      by_cases hkind : why.kind ∈ reportedKinds
      · simp [hkind]
      · simp [hkind]
  · intro fault
    rcases hending with ⟨hnone, hexit, -⟩ | ⟨why, hraises, -, hend⟩
    · simp [hnone, hexit]
    · rw [hraises, hend]
      by_cases hkind : why.kind ∈ reportedKinds
      · rw [if_pos hkind]
        constructor
        · rintro ⟨⟩
        · rintro ⟨rfl, hother⟩
          exact absurd hkind hother
      · rw [if_neg hkind]
        constructor
        · rintro ⟨⟩
          exact ⟨rfl, hkind⟩
        · rintro ⟨rfl, -⟩
          rfl

/-- A run with an entity whose second piece is no pair: the channel is opened and closed, nothing is
sent, and the failure is reported. -/
theorem run_outcome_malformed :
    let words := ["get", "-f", "driver:rating", "-e", "driver_id=1001,trips"]
    let e : Environment := ⟨.empty, [], ⟨0x3ff0000000000000⟩⟩
    ∃ r, run words e (.response []) = .ok r ∧ r.channels ≠ [] ∧ r.sent = [] ∧
      r.ending = .exit 1 := by
  intro words e
  have hread : Arguments.read words =
      .ok ⟨none, none, false, .get ["driver:rating"] ["driver_id=1001,trips"] none⟩ := by
    decide +kernel
  have hconnects : Connects e := ⟨.default, by rfl, by rintro path ⟨⟨⟩, -⟩⟩
  have hrows : Entities.rows e.now ["driver_id=1001,trips"] = .error (.entity "trips") := by
    decide +kernel
  have hmalformed : Entities.Malformed "driver_id=1001,trips" := by decide
  obtain ⟨r, hrun, -, hchannels, -, -, hsent, -, -, hreported, -⟩ :=
    run_outcome hread e (.response [])
  refine ⟨r, hrun, fun h => hchannels.1 h hconnects, ?_, ?_⟩
  · exact hsent _ _ _ rfl (.inl ⟨_, List.mem_singleton_self _, hmalformed⟩)
  · exact hreported.2 ⟨_, .command hconnects (.entity hrows), by decide⟩

end Program

end OnlineFeatures
