import OnlineFeatures.Cli.Run

/-!
# Making the client of a run

A run of the program makes its client first (`Program.connect`). That fails when the settings are
invalid or TLS lacks a certificate, and then nothing else is done; otherwise the client has an open
channel and the run goes on with it (`Program.connect_cases`, `Program.runWith_of_connect`). The
channel leads where the settings say and is secured as they say (`Client.of_ofSettings`).
-/

namespace OnlineFeatures

/-! ## Certificates -/

/-- Whether a file holds the certificate that TLS needs, but is not there. -/
def Settings.MissingCertificate (s : Settings) (e : Environment) (path : String) : Prop :=
  s.tlsEnabled = true ∧ s.certificatePath = some path ∧ path ≠ "" ∧ e.file? path = none

/-- Whether a channel is secured as settings say: in plain text exactly without TLS, and over it
trusting the certificate of the named file exactly where a file is named. -/
structure Settings.SecuredBy (s : Settings) (e : Environment) (security : Security) : Prop where
  plaintext : security = .plaintext ↔ s.tlsEnabled = false
  trusted (roots : Bytes) : security = .tls (some roots) ↔ s.tlsEnabled = true ∧
    ∃ path, s.certificatePath = some path ∧ path ≠ "" ∧ e.file? path = some roots

namespace Client

/-- The certificates are read, unless the one that TLS needs is missing. -/
theorem readRoots_cases (e : Environment) (s : Settings) :
    (∃ path, s.MissingCertificate e path ∧
        (securityOf s).readRoots e = .error (.missingFile path)) ∨
      ((∀ path, ¬ s.MissingCertificate e path) ∧
        ∃ security, (securityOf s).readRoots e = .ok security ∧ s.SecuredBy e security) := by
  by_cases htls : s.tlsEnabled = true
  · cases hpath : s.certificatePath.filter (· ≠ "") with
    | none =>
      have hroots : (securityOf s).readRoots e = .ok (.tls none) := by
        simp only [SecurityOptions.readRoots, securityOf, htls, Bool.not_true,
          Bool.false_eq_true, if_false, hpath]
      have hblank {path : String} (hcertificate : s.certificatePath = some path) : path = "" := by
        rw [hcertificate] at hpath
        simpa using hpath
      refine .inr ⟨?_, _, hroots, by simp [htls], ?_⟩
      · rintro path ⟨-, hcertificate, hne, -⟩
        exact hne (hblank hcertificate)
      · intro roots
        refine iff_of_false (by simp) ?_
        rintro ⟨-, path, hcertificate, hne, -⟩
        exact hne (hblank hcertificate)
    | some path =>
      obtain ⟨hcertificate, hfilter⟩ := Option.filter_eq_some_iff.1 hpath
      have hne : path ≠ "" := by simpa using hfilter
      have hsame {path' : String} (hcertificate' : s.certificatePath = some path') : path = path' :=
        Option.some.inj (hcertificate.symm.trans hcertificate')
      cases hfile : e.file? path with
      | none =>
        have hroots : (securityOf s).readRoots e = .error (.missingFile path) := by
          simp only [SecurityOptions.readRoots, securityOf, htls, Bool.not_true,
            Bool.false_eq_true, if_false, hpath, hfile]
        exact .inl ⟨path, ⟨htls, hcertificate, hne, hfile⟩, hroots⟩
      | some content =>
        have hroots : (securityOf s).readRoots e = .ok (.tls (some content)) := by
          simp only [SecurityOptions.readRoots, securityOf, htls, Bool.not_true,
            Bool.false_eq_true, if_false, hpath, hfile]
        refine .inr ⟨?_, _, hroots, by simp [htls], ?_⟩
        · rintro path' ⟨-, hcertificate', -, hmissing⟩
          obtain rfl := hsame hcertificate'
          rw [hfile] at hmissing
          cases hmissing
        · intro roots
          constructor
          · rintro ⟨⟩
            exact ⟨htls, path, hcertificate, hne, hfile⟩
          · rintro ⟨-, path', hcertificate', -, hfile'⟩
            obtain rfl := hsame hcertificate'
            obtain rfl := Option.some.inj (hfile.symm.trans hfile')
            rfl
  · refine .inr ⟨fun path h => htls h.1, .plaintext, ?_, ?_⟩
    · simp [SecurityOptions.readRoots, securityOf, htls]
    · exact ⟨by simp [htls], by simp [htls]⟩

theorem ofSettings_cases (e : Environment) (s : Settings) :
    (∃ path, s.MissingCertificate e path ∧ ofSettings e s = .error (.missingFile path)) ∨
      ((∀ path, ¬ s.MissingCertificate e path) ∧
        ∃ c opened, ofSettings e s = .ok (c, opened) ∧ c.channel.closed = 0) := by
  rw [ofSettings, create, Channel.build]
  rcases readRoots_cases e s with ⟨path, hpath, hroots⟩ | ⟨hnone, security, hroots, -⟩
  · exact .inl ⟨path, hpath, by rw [hroots]; rfl⟩
  · rw [hroots]
    exact .inr ⟨hnone, _, _, rfl, rfl⟩

/-- The client of settings has their project, on a new channel that leads where they say. -/
theorem of_ofSettings {e : Environment} {s : Settings} {c : Client} {logs : List LogEntry}
    (h : ofSettings e s = .ok (c, logs)) :
    c.project = s.project ∧ ∃ security, s.SecuredBy e security ∧
      c.channel = ⟨Channel.targetText s.host s.port, security, 0⟩ := by
  rw [ofSettings, create, Channel.build] at h
  rcases readRoots_cases e s with ⟨path, -, hroots⟩ | ⟨-, security, hroots, hsecured⟩
  · rw [hroots] at h
    cases h
  · rw [hroots] at h
    cases h
    exact ⟨rfl, security, hsecured, rfl⟩

end Client

namespace Program

/-! ## Connecting -/

/-- Whether a client can be made: the settings are valid, and TLS lacks no certificate. -/
def Connects (e : Environment) : Prop :=
  ∃ s, Settings.load [] e = .ok s ∧ ∀ path, ¬ s.MissingCertificate e path

/-- The client of a run, with what is logged while it is made. -/
def connect (a : Arguments) (e : Environment) : Except Failure (Client × List LogEntry) :=
  (settings a e).bind (Client.ofSettings e)

/-- Making the client fails with refused settings or a missing certificate, or makes one on an open
channel. -/
theorem connect_cases (a : Arguments) (e : Environment) :
    (∃ why, Settings.load [] e = .error why ∧ connect a e = .error (.settings why)) ∨
      (∃ s path, Settings.load [] e = .ok s ∧ s.MissingCertificate e path ∧
        connect a e = .error (.missingFile path)) ∨
      (Connects e ∧ ∃ c opened, connect a e = .ok (c, opened) ∧ c.channel.closed = 0) := by
  rw [connect, settings]
  cases hload : Settings.load [] e with
  | error why => exact .inl ⟨why, rfl, rfl⟩
  | ok s =>
    -- the host and the port that the arguments name do not matter to the certificate
    rcases Client.ofSettings_cases e
      { s with host := a.host.getD s.host, port := a.port.getD s.port }
      with ⟨path, hpath, hfails⟩ | ⟨hnone, hmade⟩
    · exact .inr (.inl ⟨s, path, rfl, hpath, hfails⟩)
    · exact .inr (.inr ⟨⟨s, hload, hnone⟩, hmade⟩)

theorem of_connect_ok {a : Arguments} {e : Environment} {c : Client} {opened : List LogEntry}
    (h : connect a e = .ok (c, opened)) : Connects e ∧ c.channel.closed = 0 := by
  rcases connect_cases a e with ⟨_, -, hfails⟩ | ⟨_, _, -, -, hfails⟩ |
    ⟨hconnects, _, _, hmade, hclosed⟩
  · cases hfails.symm.trans h
  · cases hfails.symm.trans h
  · cases hmade.symm.trans h
    exact ⟨hconnects, hclosed⟩

theorem of_connect_error {a : Arguments} {e : Environment} {why : Failure}
    (h : connect a e = .error why) : ¬ Connects e := by
  rcases connect_cases a e with ⟨fault, hload, -⟩ | ⟨s, path, hload, hmissing, -⟩ |
    ⟨-, _, _, hmade, -⟩
  · rintro ⟨s, hs, -⟩
    cases hload.symm.trans hs
  · rintro ⟨s, hs, hnone⟩
    cases hload.symm.trans hs
    exact hnone path hmissing
  · cases hmade.symm.trans h

/-! ## Going on with the client -/

theorem channels_runClient (c : Client) (opened : List LogEntry) (e : Environment) (reply : Reply)
    (command : Command) : (runClient c opened e reply command).channels = [c.close.channel] := by
  rw [runClient]
  cases (ask c e reply command).result with
  | ok output => rfl
  | error why =>
    simp only
    split <;> rfl

theorem sent_runClient (c : Client) (opened : List LogEntry) (e : Environment) (reply : Reply)
    (command : Command) :
    (runClient c opened e reply command).sent = (ask c e reply command).sent := by
  rw [runClient]
  cases (ask c e reply command).result with
  | ok output => rfl
  | error why =>
    simp only
    split <;> rfl

theorem runWith_of_connect {a : Arguments} {e : Environment} {c : Client} {opened : List LogEntry}
    (h : connect a e = .ok (c, opened)) (reply : Reply) :
    ∃ logs, runWith a e reply = { runClient c opened e reply a.command with logs } := by
  rw [runWith]
  rw [connect] at h
  cases hsettings : settings a e with
  | error why =>
    rw [hsettings] at h
    cases h
  | ok s =>
    rw [hsettings] at h
    have hclient : Client.ofSettings e s = .ok (c, opened) := h
    simp only [hclient]
    exact ⟨_, rfl⟩

theorem runWith_of_not_connect {a : Arguments} {e : Environment} {why : Failure}
    (h : connect a e = .error why) (reply : Reply) : runWith a e reply = endedEarly why := by
  rw [runWith]
  rw [connect] at h
  cases hsettings : settings a e with
  | error fault =>
    rw [hsettings] at h
    cases h
    rfl
  | ok s =>
    rw [hsettings] at h
    have hclient : Client.ofSettings e s = .error why := h
    simp only [hclient]

end Program

end OnlineFeatures
