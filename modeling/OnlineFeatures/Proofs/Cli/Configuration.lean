import OnlineFeatures.Proofs.Cli.Outcome
import OnlineFeatures.Proofs.Cli.Overrides
import OnlineFeatures.Proofs.Client.Credentials
import OnlineFeatures.Proofs.Settings.Sources

/-!
# The configuration of a run

The settings in force in a run are chosen one by one (`Settings.InForce`): a setting depends on its
own option, its own variable in the environment, its own lines of the settings file and its own
default. There is one choice of all of them, and the run follows it (`Program.run_configuration`):
in the channel that it opens, in the token that its requests carry, and in the project that they
name (`ProgramRun.Follows`).

Settings take two ways from the arguments to the server. The host and the port are put into the
settings before the client is made, the project is put into the request. Both meet in the settings
in force.
-/

namespace OnlineFeatures

/-! ## Settings in force -/

namespace Settings

/-- The settings in force in a run on arguments, in an environment with the given lines in its
settings file. -/
structure InForce (s : Settings) (a : Arguments) (e : Environment)
    (lines : List (String × String)) : Prop where
  host : SettingName.host.Chosen a.host e lines Setting.readText default.host s.host
  port : SettingName.port.Chosen a.port e lines Setting.readPort default.port s.port
  project : SettingName.project.Chosen a.command.project? e lines Setting.readText
    default.project s.project
  tlsEnabled :
    SettingName.tlsEnabled.Chosen none e lines Setting.readBool default.tlsEnabled s.tlsEnabled
  certificatePath : SettingName.certificatePath.Chosen none e lines Setting.readOptionalText
    default.certificatePath s.certificatePath
  authToken :
    SettingName.authToken.Chosen none e lines Setting.readOptionalText default.authToken s.authToken

section InForce

variable {a : Arguments} {e : Environment} {lines : List (String × String)} (hone : e.OneSpelling)
  (hlines : e.SettingsLines lines)

include hone hlines

theorem InForce.unique {s s' : Settings} (h : s.InForce a e lines) (h' : s'.InForce a e lines) :
    s = s' := by
  have hhost := h.host.unique hone hlines h'.host
  have hport := h.port.unique hone hlines h'.port
  have hproject := h.project.unique hone hlines h'.project
  have htls := h.tlsEnabled.unique hone hlines h'.tlsEnabled
  have hcertificate := h.certificatePath.unique hone hlines h'.certificatePath
  have htoken := h.authToken.unique hone hlines h'.authToken
  cases s
  cases s'
  simp_all

/-- Of settings that load, those are in force that the arguments do not override. -/
theorem inForce_of_load {s : Settings} (h : load [] e = .ok s) :
    { a.override s with project := a.command.project?.getD s.project }.InForce a e lines := by
  obtain ⟨-, hhost, hport, hproject, htls, hcertificate, htoken⟩ := load_eq_ok_iff.1 h
  constructor
  · exact SettingName.chosen_of_readAs hone hlines (SettingName.readAs_readText_iff.2 hhost)
  · exact SettingName.chosen_of_readAs hone hlines hport
  · exact SettingName.chosen_of_readAs hone hlines (SettingName.readAs_readText_iff.2 hproject)
  · exact SettingName.chosen_of_readAs hone hlines htls
  · exact SettingName.chosen_of_readAs hone hlines
      (SettingName.readAs_readOptionalText_iff.2 hcertificate)
  · exact SettingName.chosen_of_readAs hone hlines
      (SettingName.readAs_readOptionalText_iff.2 htoken)

end InForce

end Settings

/-! ## Following settings -/

/-- Whether a channel leads where settings say, secured as they say. -/
structure Channel.Follows (channel : Channel) (s : Settings) (e : Environment) : Prop where
  target : channel.target = s.host ++ ":" ++ toString s.port
  secured : s.SecuredBy e channel.security

/-- Whether a request carries the token of settings, and names their project if it is one for
features. -/
structure SentCall.Follows (sent : SentCall) (s : Settings) : Prop where
  token : ∀ token, s.authToken = some token → token ≠ "" →
    sent.metadata = [("authorization", "Bearer " ++ token)]
  noToken : s.authToken = none ∨ s.authToken = some "" → sent.metadata = []
  project : sent.method = .features →
    ∃ request : FeaturesRequest, sent.request = Message.encode request ∧
    request.project = s.project ∧
      (Message.WithinLimit request → Message.decode? sent.request = some request)

/-- Whether a run follows settings in all that it does. -/
structure ProgramRun.Follows (r : ProgramRun) (s : Settings) (e : Environment) (command : Command) :
    Prop where
  missing : ∀ path, s.MissingCertificate e path →
    r.ending = .failed (.missingFile path) ∧ r.channels = [] ∧ r.sent = []
  channel : (∀ path, ¬ s.MissingCertificate e path) →
    ∃ channel, r.channels = [channel] ∧ channel.Follows s e
  sends : (∀ path, ¬ s.MissingCertificate e path) → ∀ method, Program.Requests e command method →
    ∃ sent, r.sent = [sent] ∧ sent.method = method
  sent : ∀ sent ∈ r.sent, sent.Follows s

/-! ## The client -/

namespace Client

/-- The metadata of a client that is made of settings is the entry of their token. -/
theorem metadata_ofSettings {e : Environment} {s : Settings} {c : Client} {logs : List LogEntry}
    (h : ofSettings e s = .ok (c, logs)) :
    (∀ token, s.authToken = some token → token ≠ "" →
        c.metadata = [("authorization", "Bearer " ++ token)]) ∧
      (s.authToken = none ∨ s.authToken = some "" → c.metadata = []) := by
  rw [metadata_eq_bearerEntries (credentials_ofSettings h)]
  constructor
  · intro token htoken hne
    simp [htoken, hne, bearerEntries]
  · intro hnone
    rcases hnone with htoken | htoken <;> simp [htoken, bearerEntries]

end Client

namespace Program

/-! ## Runs -/

theorem endedEarly_follows {s : Settings} {e : Environment} {path : String}
    (h : s.MissingCertificate e path) (command : Command) :
    (endedEarly (.missingFile path)).Follows s e command where
  missing := by
    intro path' h'
    obtain ⟨-, hcertificate, -⟩ := h
    obtain ⟨-, hcertificate', -⟩ := h'
    obtain rfl := Option.some.inj (hcertificate.symm.trans hcertificate')
    exact ⟨rfl, rfl, rfl⟩
  channel hnone := absurd h (hnone path)
  sends hnone := absurd h (hnone path)
  sent := by rintro sent ⟨⟩

/-- A run with the client of settings follows these settings, with the project of the command in
theirs. -/
theorem runClient_follows {e : Environment} {s : Settings} {c : Client} {opened : List LogEntry}
    (hmade : Client.ofSettings e s = .ok (c, opened))
    (hnone : ∀ path, ¬ s.MissingCertificate e path) (reply : Reply) (command : Command)
    (logs : List LogEntry) :
    { runClient c opened e reply command with logs }.Follows
      { s with project := command.project?.getD s.project } e command := by
  obtain ⟨hproject, security, hsecured, hchannel⟩ := Client.of_ofSettings hmade
  obtain ⟨htoken, hnoToken⟩ := Client.metadata_ofSettings hmade
  have hopen : c.channel.isOpen = true := by rw [hchannel]; rfl
  have hsent := ask_sends c e reply command
  constructor
  · intro path h
    exact absurd h (hnone path)
  · intro _
    refine ⟨c.close.channel, channels_runClient c opened e reply command, ?_⟩
    show c.channel.close.Follows _ e
    -- closing a channel changes neither where it leads nor how it is secured
    rw [hchannel]
    exact ⟨rfl, hsecured.plaintext, hsecured.trusted⟩
  · intro _ method h
    show ∃ sent, (runClient c opened e reply command).sent = [sent] ∧ sent.method = method
    rw [sent_runClient]
    rcases hsent with ⟨hnot, -⟩ | ⟨sent, hone, hmethod, -⟩
    · exact absurd h (hnot method)
    · exact ⟨sent, by rw [hone, if_pos hopen], hmethod.unique h⟩
  · intro sent hmem
    change sent ∈ (runClient c opened e reply command).sent at hmem
    rw [sent_runClient] at hmem
    rcases hsent with ⟨-, hnil⟩ | ⟨sent', hone, -, hmetadata, hrequest⟩
    · rw [hnil] at hmem
      cases hmem
    · rw [hone, if_pos hopen] at hmem
      obtain rfl := List.mem_singleton.1 hmem
      refine ⟨fun token h hne => hmetadata.trans (htoken token h hne),
        fun h => hmetadata.trans (hnoToken h), ?_⟩
      intro hfeatures
      obtain ⟨refs, rows, hrows, hbytes⟩ := hrequest hfeatures
      refine ⟨c.request refs rows command.project?, hbytes, by rw [← hproject]; rfl, ?_⟩
      intro hlimit
      rw [hbytes]
      exact Client.decode?_of_spelled_request c refs hrows _ hlimit
        (FeaturesRequest.spelled_encode _)

/-- A run on arguments that can be read, in an environment that spells no setting in two ways and
with a plain settings file, follows the settings in force, which are chosen one by one and are the
only ones that are, as soon as the settings load. -/
theorem run_configuration {words : List String} {a : Arguments}
    (hread : Arguments.read words = .ok a) {e : Environment} {lines : List (String × String)}
    (hone : e.OneSpelling) (hlines : e.SettingsLines lines)
    (hvalid : ∃ s, Settings.load [] e = .ok s) (reply : Reply) :
    ∃ s : Settings, s.InForce a e lines ∧ (∀ s' : Settings, s'.InForce a e lines → s' = s) ∧
      ∃ r, run words e reply = .ok r ∧ r.Follows s e a.command := by
  obtain ⟨loaded, hload⟩ := hvalid
  have hforce := Settings.inForce_of_load (a := a) hone hlines hload
  refine ⟨_, hforce, fun s' h' => h'.unique hone hlines hforce,
    runWith a e reply, by rw [run, hread]; rfl, ?_⟩
  rw [runWith_of_load hload]
  rcases Client.ofSettings_cases e (a.override loaded) with
    ⟨path, hpath, hfails⟩ | ⟨hnone, c, opened, hmade, -⟩
  · have hmissing : { a.override loaded with
        project := a.command.project?.getD loaded.project }.MissingCertificate e path := hpath
    rw [hfails]
    exact endedEarly_follows hmissing a.command
  · rw [hmade]
    exact runClient_follows hmade hnone reply a.command _

/-- Each setting from another place: the port and the blank project from the arguments, the host and
the use of TLS from the environment, the token from the settings file, and no certificate by
default. -/
theorem run_configuration_mixed :
    let words := ["--port", "123", "get", "-f", "a", "-e", "k=1", "-p", ""]
    let e : Environment :=
      ⟨.ofList [("FEAST_SERVING_HOST", "h"), ("Feast_Serving_Tls_Enabled", "On"),
        ("FEAST_SERVING_PROJECT", "p")],
      [(".env", Utf8.encode "FEAST_SERVING_HOST=other\r\nfeast_serving_auth_token=secret")],
      ⟨0x3ff0000000000000⟩⟩
    ∃ r, run words e (.response []) = .ok r ∧
      (∃ channel, r.channels = [channel] ∧ channel.target = "h:123" ∧
        channel.security ≠ .plaintext) ∧
      ∀ sent ∈ r.sent, sent.metadata = [("authorization", "Bearer secret")] ∧
        (sent.method = .features →
          ∃ request : FeaturesRequest, sent.request = Message.encode request ∧
          request.project = "") := by
  intro words e
  let a : Arguments := ⟨none, some 123, false, .get ["a"] ["k=1"] (some "")⟩
  let lines := [("FEAST_SERVING_HOST", "other"), ("feast_serving_auth_token", "secret")]
  let s : Settings := ⟨"h", 123, "", true, none, some "secret"⟩
  have hread : Arguments.read words = .ok a := by decide +kernel
  have hone : e.OneSpelling := by
    intro n
    cases n <;> decide +kernel
  -- the two lines of the file are plain, so their reading needs no evaluation
  have hhost : EnvFile.PlainLine "FEAST_SERVING_HOST" "other" :=
    ⟨by simp, by simp [isBlank, isWhiteSpace], by simp, by simp [EnvFile.isLineEnd],
      by simp [isBlank, isWhiteSpace], by simp [isBlank, isWhiteSpace],
      by simp [isBlank, isWhiteSpace], by decide +kernel⟩
  have htoken : EnvFile.PlainLine "feast_serving_auth_token" "secret" :=
    ⟨by simp, by simp [isBlank, isWhiteSpace], by simp, by simp [EnvFile.isLineEnd],
      by simp [isBlank, isWhiteSpace], by simp [isBlank, isWhiteSpace],
      by simp [isBlank, isWhiteSpace], by decide +kernel⟩
  have htext : "FEAST_SERVING_HOST=other\r\nfeast_serving_auth_token=secret".toList =
      "FEAST_SERVING_HOST".toList ++ '=' :: ("other".toList ++ (['\r', '\n'] ++
        ("feast_serving_auth_token".toList ++ '=' :: "secret".toList))) := by
    decide +kernel
  have hlines : e.SettingsLines lines := by
    refine .plain rfl ?_
    rw [htext]
    exact .line hhost (by decide) (.last htoken)
  have hload : Settings.load [] e = .ok ⟨"h", 6566, "p", true, none, some "secret"⟩ := by
    decide +kernel
  have hs : s.InForce a e lines := Settings.inForce_of_load (a := a) hone hlines hload
  obtain ⟨s', -, hunique, r, hrun, hfollows⟩ :=
    run_configuration hread hone hlines ⟨_, hload⟩ (.response [])
  obtain rfl := hunique s hs
  have hnone : ∀ path, ¬ s.MissingCertificate e path := by
    rintro path ⟨-, ⟨⟩, -⟩
  obtain ⟨channel, hchannels, hchannel⟩ := hfollows.channel hnone
  refine ⟨r, hrun, ⟨channel, hchannels, hchannel.target, ?_⟩, ?_⟩
  · intro hplaintext
    cases hchannel.secured.plaintext.1 hplaintext
  · intro sent hsent
    have hfollowed := hfollows.sent sent hsent
    refine ⟨hfollowed.token "secret" rfl (by decide), ?_⟩
    intro hmethod
    obtain ⟨request, hrequest, hproject, -⟩ := hfollowed.project hmethod
    exact ⟨request, hrequest, hproject⟩

end Program

end OnlineFeatures
