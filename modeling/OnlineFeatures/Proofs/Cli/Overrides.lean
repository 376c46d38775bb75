import Std.Data.String.ToInt
import OnlineFeatures.Proofs.Cli.Connect
import OnlineFeatures.Proofs.Reference
import OnlineFeatures.Proofs.Settings.Reading

/-!
# Arguments in place of settings

The arguments of a run may name the host, the port and the project themselves. They are put in place
of what the surroundings give (`Arguments.override`), but only when the settings have been loaded,
and then as they are.

So when all three are named, the variables of these settings do not matter to a run, except that a
port in the environment is read all the same: two runs in environments that differ in these
variables alone are the same exactly when the port is refused in neither, or for one reason in both
(`Program.run_eq_iff_portFault`). And the port of a run is one that there is exactly when the
arguments name no other (`Program.port_of_run`).
-/

namespace OnlineFeatures

/-! ## What arguments override -/

/-- The settings with what the arguments name in their place. -/
def Arguments.override (a : Arguments) (s : Settings) : Settings :=
  { s with host := a.host.getD s.host, port := a.port.getD s.port }

/-- Whether a command leaves nothing to the project of the settings. -/
def Command.NamesProject : Command → Prop
  | .info => True
  | .get _ _ project => project.isSome = true

/-- Whether arguments name all that they can in place of settings. -/
structure Arguments.OverrideAll (a : Arguments) : Prop where
  host : a.host.isSome = true
  port : a.port.isSome = true
  project : a.command.NamesProject

/-- The settings that arguments can be put in place of. -/
def SettingName.overridable : List SettingName := [host, port, project]

/-! ## Settings that agree -/

namespace Settings

open SettingName (overridable)
open Environment (AgreeApartFrom)

section Agree

variable {e e' : Environment} (h : AgreeApartFrom overridable e e')
  (hfile : e.file? Environment.settingsFile = none)

include h hfile

theorem refusals_eq_iff : refusals e = refusals e' ↔ e.portFault? = e'.portFault? := by
  have htls : e.tlsFault? = e'.tlsFault? := by
    rw [Environment.tlsFault?, Environment.tlsFault?, Environment.fault?, Environment.fault?,
      h.text?_eq hfile (by decide)]
  rw [refusals, refusals, htls, List.append_cancel_right_eq]
  cases e.portFault? <;> cases e'.portFault? <;> simp

/-- Settings that load in both environments may differ in what can be overridden, and in nothing
else. -/
theorem override_eq_of_load {a : Arguments} (ha : a.OverrideAll) {s s' : Settings}
    (hs : load [] e = .ok s) (hs' : load [] e' = .ok s') :
    a.override s' = { a.override s with project := s'.project } := by
  obtain ⟨host, hhost⟩ := Option.isSome_iff_exists.1 ha.host
  obtain ⟨port, hport⟩ := Option.isSome_iff_exists.1 ha.port
  obtain ⟨-, -, -, -, htls, hcertificate, htoken⟩ := load_eq_ok_iff.1 hs
  obtain ⟨-, -, -, -, htls', hcertificate', htoken'⟩ := load_eq_ok_iff.1 hs'
  have htext (n : SettingName) (hn : n ∉ overridable) := h.text?_eq hfile hn
  have hsame : s'.tlsEnabled = s.tlsEnabled :=
    (SettingName.ReadAs.unique (htext .tlsEnabled (by decide)) htls htls').symm
  simp only [Arguments.override, hhost, hport, Option.getD_some, hsame, hcertificate, hcertificate',
    htoken, htoken', htext .certificatePath (by decide), htext .authToken (by decide)]

end Agree

end Settings

/-! ## Clients that differ in their project -/

namespace Client

theorem ofSettings_congr {e e' : Environment} (h : e.files = e'.files) (s : Settings) :
    ofSettings e s = ofSettings e' s := by
  simp only [ofSettings, create, Channel.build, SecurityOptions.readRoots, Environment.file?, h]

theorem ofSettings_project (e : Environment) (s : Settings) (project : String) :
    ofSettings e { s with project } =
      (ofSettings e s).map fun (c, logs) => ({ c with project }, logs) := by
  have hsecurity : securityOf { s with project } = securityOf s := rfl
  rw [ofSettings, ofSettings, hsecurity]
  cases create e s.host s.port (securityOf s) <;> rfl

end Client

namespace Program

theorem settings_eq (a : Arguments) (e : Environment) :
    settings a e = ((Settings.load [] e).mapError Failure.settings).map a.override := by
  rw [settings]
  cases Settings.load [] e <;> rfl

theorem ask_project (c : Client) (e : Environment) (reply : Reply) {command : Command}
    (h : command.NamesProject) (project : String) :
    ask { c with project } e reply command = ask c e reply command := by
  cases command with
  | info => rfl
  | get features entities override =>
    obtain ⟨named, rfl⟩ := Option.isSome_iff_exists.1 h
    rfl

theorem ask_congr {e e' : Environment} (h : e.now = e'.now) (c : Client) (reply : Reply)
    (command : Command) : ask c e reply command = ask c e' reply command := by
  cases command with
  | info => rfl
  | get features entities project => simp only [ask, h]

/-- What runs of clients with different projects come to is the same, if the command names its
own. -/
theorem runClient_project {e e' : Environment} (hnow : e.now = e'.now) {command : Command}
    (h : command.NamesProject) (c : Client) (opened : List LogEntry) (reply : Reply)
    (project : String) :
    runClient { c with project } opened e' reply command = runClient c opened e reply command := by
  have hask : ask { c with project } e' reply command = ask c e reply command := by
    rw [ask_project c e' reply h, ← ask_congr hnow]
  rw [runClient, runClient, hask]
  rfl

/-! ## Runs -/

theorem runWith_of_load_error {e : Environment} {why : SettingsFault}
    (h : Settings.load [] e = .error why) (a : Arguments) (reply : Reply) :
    runWith a e reply = endedEarly (.settings why) := by
  rw [runWith, settings_eq, h]
  rfl

/-- A run whose settings load goes on with what the arguments override. -/
theorem runWith_of_load {e : Environment} {s : Settings} (h : Settings.load [] e = .ok s)
    (a : Arguments) (reply : Reply) :
    runWith a e reply =
      match Client.ofSettings e (a.override s) with
      | .error why => endedEarly why
      | .ok (c, opened) =>
        let r := runClient c opened e reply a.command
        { r with logs := written a.verbose r.logs } := by
  rw [runWith, settings_eq, h]
  rfl

theorem runWith_ne_of_load {e : Environment} {s : Settings} (h : Settings.load [] e = .ok s)
    (a : Arguments) (reply : Reply) (why : SettingsFault) :
    runWith a e reply ≠ endedEarly (.settings why) := by
  rw [runWith_of_load h]
  rcases Client.ofSettings_cases e (a.override s) with ⟨path, -, hfails⟩ | ⟨-, c, opened, hmade, -⟩
  · simp [hfails, endedEarly]
  · intro hsame
    have hchannels := congrArg ProgramRun.channels hsame
    simp only [hmade, channels_runClient, endedEarly] at hchannels
    cases hchannels

section Agree

variable {a : Arguments} (ha : a.OverrideAll) {e e' : Environment}
  (h : Environment.AgreeApartFrom SettingName.overridable e e')
  (hfile : e.file? Environment.settingsFile = none)

include ha h hfile

theorem runWith_eq_of_load {s s' : Settings} (hs : Settings.load [] e = .ok s)
    (hs' : Settings.load [] e' = .ok s') (reply : Reply) :
    runWith a e reply = runWith a e' reply := by
  have hclient : Client.ofSettings e' (a.override s') =
      (Client.ofSettings e (a.override s)).map fun (c, logs) =>
        ({ c with project := s'.project }, logs) := by
    rw [Settings.override_eq_of_load h hfile ha hs hs', ← Client.ofSettings_congr h.files]
    exact Client.ofSettings_project e (a.override s) s'.project
  rw [runWith_of_load hs, runWith_of_load hs', hclient]
  cases Client.ofSettings e (a.override s) with
  | error why => rfl
  | ok made =>
    obtain ⟨c, opened⟩ := made
    have hrun := runClient_project h.now ha.project c opened reply s'.project
    simp only [Except.map, hrun]

theorem runWith_eq_iff (reply : Reply) :
    runWith a e reply = runWith a e' reply ↔ e.portFault? = e'.portFault? := by
  have hrefusals := Settings.refusals_eq_iff h hfile
  have hreadable := Environment.settingsReadable_of_absent hfile
  have hreadable' := Environment.settingsReadable_of_absent (h.file?_eq _ ▸ hfile)
  rcases Settings.load_cases hreadable with ⟨hnone, s, hs⟩ | ⟨hsome, hfails⟩ <;>
    rcases Settings.load_cases hreadable' with ⟨hnone', s', hs'⟩ | ⟨hsome', hfails'⟩
  · have hfault := hrefusals.1 (hnone.trans hnone'.symm)
    exact iff_of_true (runWith_eq_of_load ha h hfile hs hs' reply) hfault
  · rw [runWith_of_load_error hfails']
    refine iff_of_false (runWith_ne_of_load hs a reply _) ?_
    intro hfault
    exact hsome' ((hrefusals.2 hfault).symm.trans hnone)
  · rw [runWith_of_load_error hfails]
    refine iff_of_false (Ne.symm (runWith_ne_of_load hs' a reply _)) ?_
    intro hfault
    exact hsome ((hrefusals.2 hfault).trans hnone')
  · rw [runWith_of_load_error hfails, runWith_of_load_error hfails', ← hrefusals]
    simp [endedEarly]

end Agree

/-- Two runs on arguments that override all they can, in environments without a settings file that
agree apart from the overridden variables, are the same in all that they do, exactly when the
variable of the port is refused in neither environment, or in both for the same reason. Words that
are no arguments end both alike. -/
theorem run_eq_iff_portFault {words : List String}
    (hwords : ∀ a, Arguments.read words = .ok a → a.OverrideAll) {e e' : Environment}
    (h : Environment.AgreeApartFrom SettingName.overridable e e')
    (hfile : e.file? Environment.settingsFile = none) (reply : Reply) :
    run words e reply = run words e' reply ↔
      ((∃ a, Arguments.read words = .ok a) → e.portFault? = e'.portFault?) := by
  rw [run, run]
  cases hread : Arguments.read words with
  | error why => simp [Except.map]
  | ok a =>
    have hruns := runWith_eq_iff (hwords a hread) h hfile reply
    simp [Except.map, hruns]

/-- Three variables that the arguments override, in an environment with them and in one without. -/
theorem run_eq_iff_portFault_get :
    let words := ["--host", "h", "--port", "123", "get", "-f", "a", "-e", "k=1", "-p", "p"]
    let e : Environment :=
      ⟨.ofList [("FEAST_SERVING_HOST", "other"), ("Feast_Serving_Port", "7777"),
        ("FEAST_SERVING_PROJECT", "q")], [], ⟨0x3ff0000000000000⟩⟩
    let e' : Environment := ⟨.empty, [], ⟨0x3ff0000000000000⟩⟩
    ∀ reply, run words e reply = run words e' reply := by
  intro words e e' reply
  have hread :
      Arguments.read words = .ok ⟨some "h", some 123, false, .get ["a"] ["k=1"] (some "p")⟩ := by
    decide +kernel
  have hwords (a : Arguments) (ha : Arguments.read words = .ok a) : a.OverrideAll := by
    cases hread.symm.trans ha
    exact ⟨rfl, rfl, rfl⟩
  have hagree : Environment.AgreeApartFrom SettingName.overridable e e' :=
    ⟨by decide +kernel, rfl, rfl⟩
  have hport : e.portFault? = e'.portFault? := by decide +kernel
  exact (run_eq_iff_portFault hwords hagree rfl reply).2 fun _ => hport

/-- A port in the environment that is no number ends a run whose arguments name a port of their
own. -/
theorem run_refused_port :
    let words := ["--host", "localhost", "--port", "6566", "info"]
    let e : Environment := ⟨.empty, [], ⟨0x3ff0000000000000⟩⟩
    let e' : Environment := ⟨.ofList [("FEAST_SERVING_PORT", "abc")], [], ⟨0x3ff0000000000000⟩⟩
    (∀ a, Arguments.read words = .ok a → a.OverrideAll) ∧
      Environment.AgreeApartFrom SettingName.overridable e e' ∧
      ∃ r r', run words e (.response []) = .ok r ∧ run words e' (.response []) = .ok r' ∧
        r.ending = .exit 0 ∧ r.channels = [⟨"localhost:6566", .plaintext, 1⟩] ∧
        r'.ending = .failed (.settings (.refused [⟨.port, .unparsableInteger⟩])) ∧
          r'.channels = [] := by
  intro words e e'
  have hread : Arguments.read words = .ok ⟨some "localhost", some 6566, false, .info⟩ := by
    decide +kernel
  have hrun (e : Environment) : run words e (.response []) =
      .ok (runWith ⟨some "localhost", some 6566, false, .info⟩ e (.response [])) := by
    rw [run, hread]
    rfl
  refine ⟨?_, ⟨by decide +kernel, rfl, rfl⟩, _, _, hrun e, hrun e', ?_, ?_, ?_, ?_⟩
  · intro a ha
    cases hread.symm.trans ha
    exact ⟨rfl, rfl, trivial⟩
  · decide +kernel
  · decide +kernel
  · decide +kernel
  · decide +kernel

end Program

/-! ## Targets -/

namespace Channel

theorem colon_not_mem_repr (n : Nat) : ':' ∉ n.repr.toList := by
  intro hmem
  rw [Nat.toList_repr] at hmem
  have hdigit := Nat.isDigit_of_mem_toDigits (by decide) (by decide) hmem
  revert hdigit
  decide

theorem colon_not_mem_port (port : Int) : ':' ∉ (toString port).toList := by
  rw [Int.toString_eq_repr, Int.repr_eq_if]
  split
  · exact colon_not_mem_repr _
  · rw [String.toList_append, List.mem_append, not_or]
    exact ⟨by decide, colon_not_mem_repr _⟩

theorem toList_targetText (host : String) (port : Int) :
    (targetText host port).toList = host.toList ++ ':' :: (toString port).toList := by
  simp [targetText]

/-- A target tells its port: what stands behind the last colon. -/
theorem port_of_targetText {host host' : String} {port port' : Int}
    (h : targetText host port = targetText host' port') : port = port' := by
  have hcolon (p : Int) : ':' ∉ (toString p).toList.reverse := by
    rw [List.mem_reverse]
    exact colon_not_mem_port p
  have hread (host : String) (p : Int) : (targetText host p).toList.reverse.takeWhile (· ≠ ':') =
      (toString p).toList.reverse := by
    rw [toList_targetText, List.reverse_append, List.reverse_cons, List.append_assoc]
    exact takeWhile_ne_append (hcolon p) host.toList.reverse
  have hports := hread host port
  rw [h, hread host' port', List.reverse_inj, String.toList_inj, Int.toString_eq_repr,
    Int.toString_eq_repr, Int.repr_inj] at hports
  exact hports.symm

end Channel

/-- Whether a port is one that arguments lead to: the one that they name, or else one that there
is. -/
structure Arguments.LeadTo (a : Arguments) (port : Int) : Prop where
  named : ∀ given, a.port = some given → port = given
  unnamed : a.port = none → 1 ≤ port ∧ port ≤ 65535

namespace Program

theorem leadTo_of_settings {a : Arguments} {e : Environment} {s : Settings}
    (h : settings a e = .ok s) :
    a.LeadTo s.port := by
  rw [settings_eq] at h
  obtain ⟨s₀, hmapped, rfl⟩ := Except.map_eq_ok_iff.1 h
  have hload := Except.mapError_eq_ok_iff.1 hmapped
  constructor
  · intro given hgiven
    simp [Arguments.override, hgiven]
  · intro hnone
    simpa [Arguments.override, hnone] using Settings.port_of_load hload

/-- A channel of a run leads where the settings that the run goes on with say. -/
theorem target_of_mem_channels {a : Arguments} {e : Environment} {reply : Reply} {channel : Channel}
    (h : channel ∈ (runWith a e reply).channels) :
    ∃ s, settings a e = .ok s ∧ channel.target = Channel.targetText s.host s.port := by
  rw [runWith] at h
  cases hsettings : settings a e with
  | error why =>
    rw [hsettings] at h
    cases h
  | ok s =>
    rw [hsettings] at h
    refine ⟨s, rfl, ?_⟩
    cases hclient : Client.ofSettings e s with
    | error why =>
      simp only [hclient] at h
      cases h
    | ok made =>
      obtain ⟨c, opened⟩ := made
      simp only [hclient, channels_runClient, List.mem_singleton] at h
      obtain ⟨-, security, -, hopened⟩ := Client.of_ofSettings hclient
      rw [h]
      show c.channel.target = _
      rw [hopened]

/-- The settings that a run makes its client of have the port that the arguments name, in range or
not, and one that there is where they name none. So has the target of every channel that it
opens. -/
theorem port_of_run {words : List String} {a : Arguments} (hread : Arguments.read words = .ok a)
    (e : Environment) (reply : Reply) :
    (∀ s, settings a e = .ok s → a.LeadTo s.port) ∧
      ∃ r, run words e reply = .ok r ∧ ∀ channel ∈ r.channels,
        ∃ host port, channel.target = Channel.targetText host port ∧
          (∀ host' port', channel.target = Channel.targetText host' port' → port' = port) ∧
          a.LeadTo port := by
  refine ⟨fun s => leadTo_of_settings, runWith a e reply, by rw [run, hread]; rfl, ?_⟩
  intro channel hchannel
  obtain ⟨s, hsettings, htarget⟩ := target_of_mem_channels hchannel
  refine ⟨s.host, s.port, htarget, ?_, leadTo_of_settings hsettings⟩
  intro host' port' htarget'
  exact Channel.port_of_targetText (htarget'.symm.trans htarget)

/-- A port from the environment. -/
theorem port_of_run_environment :
    let e : Environment := ⟨.ofList [("FEAST_SERVING_PORT", " 7_777 ")], [], ⟨0x3ff0000000000000⟩⟩
    ∃ r, run ["info"] e (.response []) = .ok r ∧ r.channels ≠ [] ∧ ∀ channel ∈ r.channels,
      ∃ host port, channel.target = Channel.targetText host port ∧ 1 ≤ port ∧ port ≤ 65535 := by
  intro e
  have hread : Arguments.read ["info"] = .ok ⟨none, none, false, .info⟩ := by decide +kernel
  obtain ⟨-, r, hrun, hchannels⟩ := port_of_run hread e (.response [])
  have hr : runWith ⟨none, none, false, .info⟩ e (.response []) = r := by
    rw [run, hread] at hrun
    exact Except.ok.inj hrun
  refine ⟨r, hrun, ?_, ?_⟩
  · rw [← hr]
    decide +kernel
  · intro channel hchannel
    obtain ⟨host, port, htarget, -, hport⟩ := hchannels channel hchannel
    exact ⟨host, port, htarget, hport.unnamed rfl⟩

/-- A port that there is none of, when the arguments name it. -/
theorem run_unchecked_port :
    ∃ r, run ["--port", "70000", "info"] ⟨.empty, [], ⟨0x3ff0000000000000⟩⟩ (.response []) = .ok r ∧
      r.ending = .exit 0 ∧
      r.channels = [⟨Channel.targetText "localhost" 70000, .plaintext, 1⟩] := by
  have hread :
      Arguments.read ["--port", "70000", "info"] = .ok ⟨none, some 70000, false, .info⟩ := by
    decide +kernel
  refine ⟨_, by rw [run, hread]; rfl, ?_, ?_⟩
  · decide +kernel
  · decide +kernel

end Program

end OnlineFeatures
