import OnlineFeatures.Settings.Load
import OnlineFeatures.Proofs.Conversion.Kinds

/-!
# What surroundings make of the settings

Without arguments a setting is given by a text (`Environment.text?`), from the environment or else
from the settings file. Texts are read as they stand for four of the settings, so that the port and
the use of TLS are the only ones that can be refused (`Settings.read_nil`). Settings load exactly
when neither is and the settings file, if there is one, is a text (`Settings.load_eq_ok_iff`), and a
refused port is the first error (`Settings.load_cases`). A port that loads is a port that there is
(`Settings.port_of_load`).

Without a settings file nothing but the variables of a setting gives it. So two environments that
agree apart from the variables of some settings give all other settings the same texts
(`Environment.AgreeApartFrom.text?_eq`).
-/

namespace OnlineFeatures

/-! ## The text of a setting -/

namespace Environment

/-- The text of a setting's variable, in the environment. -/
def bound? (e : Environment) (n : SettingName) : Option String :=
  lastNamed n.variableName e.bindings.entries

/-- The text of a setting's variable, in the settings file. -/
def fileBound? (e : Environment) (n : SettingName) : Option String :=
  (lastNamed n.variableName e.fileVariables).bind id

/-- The text that gives a setting. -/
def text? (e : Environment) (n : SettingName) : Option String :=
  (e.bound? n).or (e.fileBound? n)

/-- Why the text of a setting is refused, if it is. -/
def fault? {α : Type} (e : Environment) (n : SettingName) (read : Native → Except SettingFault α) :
    Option SettingFault :=
  (e.text? n).bind fun s =>
    match read (.text s) with
    | .ok _ => none
    | .error fault => some fault

/-- Why the port is refused, if it is. -/
def portFault? (e : Environment) : Option SettingFault := e.fault? .port Setting.readPort

/-- Why the use of TLS is refused, if it is. -/
def tlsFault? (e : Environment) : Option SettingFault := e.fault? .tlsEnabled Setting.readBool

theorem settingsReadable_of_absent {e : Environment} (h : e.file? settingsFile = none) :
    e.settingsReadable = true := by
  rw [settingsReadable, h]
  rfl

end Environment

namespace SettingName

variable {α : Type} {read : Native → Except SettingFault α} {default : α}

theorem given?_nil (n : SettingName) (e : Environment) :
    n.given? [] e = (e.text? n).map .text := by
  simp only [given?, Environment.text?, Environment.bound?, Environment.fileBound?,
    List.lookup_nil, Option.none_or, Option.map_or]

/-- What a setting is read as, from its text or by default. -/
def ReadAs (n : SettingName) (e : Environment) (read : Native → Except SettingFault α)
    (default a : α) :
    Prop :=
  (e.text? n = none ∧ a = default) ∨ ∃ s, e.text? n = some s ∧ read (.text s) = .ok a

theorem readGiven_nil (n : SettingName) (e : Environment) :
    n.readGiven [] e read default =
      match e.text? n with
      | none => .ok default
      | some s => (read (.text s)).mapError fun fault => ⟨n, fault⟩ := by
  rw [readGiven, given?_nil]
  cases e.text? n <;> rfl

theorem readGiven_eq_ok_iff {n : SettingName} {e : Environment} {a : α} :
    n.readGiven [] e read default = .ok a ↔ n.ReadAs e read default a := by
  rw [readGiven_nil, ReadAs]
  cases e.text? n with
  | none => simp [eq_comm]
  | some s => simp [Except.mapError_eq_ok_iff]

/-- The same text is read as the same value. -/
theorem ReadAs.unique {n : SettingName} {e e' : Environment} {a a' : α}
    (htext : e.text? n = e'.text? n) (h : n.ReadAs e read default a)
    (h' : n.ReadAs e' read default a') : a = a' := by
  rcases h with ⟨hnone, rfl⟩ | ⟨s, hs, hread⟩ <;> rcases h' with ⟨hnone', rfl⟩ | ⟨s', hs', hread'⟩
  · rfl
  · rw [hnone, hs'] at htext
    cases htext
  · rw [hs, hnone'] at htext
    cases htext
  · rw [hs, hs'] at htext
    cases htext
    exact Except.ok.inj (hread.symm.trans hread')

theorem readAs_readText_iff {n : SettingName} {e : Environment} {d s : String} :
    n.ReadAs e Setting.readText d s ↔ s = (e.text? n).getD d := by
  rw [ReadAs]
  cases e.text? n <;> simp [Setting.readText, eq_comm]

theorem readAs_readOptionalText_iff {n : SettingName} {e : Environment} {s : Option String} :
    n.ReadAs e Setting.readOptionalText none s ↔ s = e.text? n := by
  rw [ReadAs]
  cases e.text? n <;> simp [Setting.readOptionalText, Setting.readText, Except.map, eq_comm]

/-- A setting is read, or refused for the fault of its text. -/
theorem readGiven_cases (n : SettingName) (e : Environment) (read : Native → Except SettingFault α)
    (default : α) :
    (e.fault? n read = none ∧ ∃ a, n.readGiven [] e read default = .ok a) ∨
      ∃ fault, e.fault? n read = some fault ∧
        n.readGiven [] e read default = .error ⟨n, fault⟩ := by
  rw [readGiven_nil, Environment.fault?]
  cases e.text? n with
  | none => exact .inl ⟨rfl, default, rfl⟩
  | some s =>
    simp only [Option.bind_some]
    cases read (.text s) with
    | ok a => exact .inl ⟨rfl, a, rfl⟩
    | error fault => exact .inr ⟨fault, rfl, rfl⟩

end SettingName

theorem Setting.readPort_eq_ok_iff {v : Native} {port : Int} :
    readPort v = .ok port ↔ readInt v = .ok port ∧ 1 ≤ port ∧ port ≤ 65535 := by
  rw [readPort]
  cases readInt v with
  | error fault => simp [Except.bind]
  | ok i =>
    show (if lastPort < i then _ else _) = _ ↔ _
    rw [lastPort]
    by_cases hlast : 65535 < i
    · rw [if_pos hlast]
      simp only [Except.ok.injEq, reduceCtorEq, false_iff]
      omega
    · rw [if_neg hlast]
      by_cases hfirst : i < 1
      · rw [if_pos hfirst]
        simp only [Except.ok.injEq, reduceCtorEq, false_iff]
        omega
      · rw [if_neg hfirst]
        simp only [Except.ok.injEq]
        omega

/-! ## Loading -/

namespace Settings

/-- The errors of refused settings, the port before the use of TLS. -/
def refusals (e : Environment) : List SettingError :=
  ((e.portFault?.map (⟨.port, ·⟩)).toList ++ (e.tlsFault?.map (⟨.tlsEnabled, ·⟩)).toList)

/-- Only the port and the use of TLS are read; all other texts stand as they are. -/
theorem read_nil (e : Environment) :
    read [] e =
      match SettingName.port.readGiven [] e Setting.readPort default.port,
        SettingName.tlsEnabled.readGiven [] e Setting.readBool default.tlsEnabled with
      | .ok port, .ok tlsEnabled =>
        .ok ⟨(e.text? .host).getD default.host, port,
          (e.text? .project).getD default.project, tlsEnabled,
          e.text? .certificatePath, e.text? .authToken⟩
      | port, tlsEnabled => .error (errorOf port ++ errorOf tlsEnabled) := by
  have htext (n : SettingName) (d : String) :
      n.readGiven [] e Setting.readText d = .ok ((e.text? n).getD d) := by
    rw [SettingName.readGiven_nil]
    cases e.text? n <;> rfl
  have hoptional (n : SettingName) :
      n.readGiven [] e Setting.readOptionalText none = .ok (e.text? n) := by
    rw [SettingName.readGiven_nil]
    cases e.text? n <;> rfl
  have hcertificate : SettingName.certificatePath.readGiven [] e Setting.readOptionalText
      default.certificatePath = .ok (e.text? .certificatePath) := hoptional .certificatePath
  have htoken : SettingName.authToken.readGiven [] e Setting.readOptionalText default.authToken =
      .ok (e.text? .authToken) := hoptional .authToken
  simp only [read, htext, hcertificate, htoken]
  cases SettingName.port.readGiven [] e Setting.readPort default.port <;>
    cases SettingName.tlsEnabled.readGiven [] e Setting.readBool default.tlsEnabled <;> rfl

/-- Settings load when nothing is refused, and otherwise fail with all refusals, unless the settings
file is no text. -/
theorem load_cases {e : Environment} (h : e.settingsReadable = true) :
    (refusals e = [] ∧ ∃ s, load [] e = .ok s) ∨
      (refusals e ≠ [] ∧ load [] e = .error (.refused (refusals e))) := by
  rw [load, if_pos h, read_nil, refusals, Environment.portFault?, Environment.tlsFault?]
  rcases SettingName.port.readGiven_cases e Setting.readPort default.port with
    ⟨hnone, port, hport⟩ | ⟨fault, hfault, hport⟩ <;>
  rcases SettingName.tlsEnabled.readGiven_cases e Setting.readBool default.tlsEnabled with
    ⟨hnone', tls, htls⟩ | ⟨fault', hfault', htls⟩
  · simp [hport, htls, hnone, hnone', Except.mapError]
  · simp [hport, htls, hnone, hfault', errorOf, Except.mapError]
  · simp [hport, htls, hfault, hnone', errorOf, Except.mapError]
  · simp [hport, htls, hfault, hfault', errorOf, Except.mapError]

theorem read_eq_ok_iff {e : Environment} {s : Settings} :
    read [] e = .ok s ↔
      s.host = (e.text? .host).getD default.host ∧
        SettingName.port.ReadAs e Setting.readPort default.port s.port ∧
        s.project = (e.text? .project).getD default.project ∧
        SettingName.tlsEnabled.ReadAs e Setting.readBool default.tlsEnabled s.tlsEnabled ∧
        s.certificatePath = e.text? .certificatePath ∧ s.authToken = e.text? .authToken := by
  rw [read_nil, ← SettingName.readGiven_eq_ok_iff, ← SettingName.readGiven_eq_ok_iff]
  cases SettingName.port.readGiven [] e Setting.readPort default.port with
  | error why => simp
  | ok port =>
    cases SettingName.tlsEnabled.readGiven [] e Setting.readBool default.tlsEnabled with
    | error why => simp
    | ok tlsEnabled =>
      obtain ⟨host, port', project, tlsEnabled', certificatePath, authToken⟩ := s
      simp only [Except.ok.injEq, Settings.mk.injEq]
      constructor
      · rintro ⟨rfl, rfl, rfl, rfl, rfl, rfl⟩
        exact ⟨rfl, rfl, rfl, rfl, rfl, rfl⟩
      · rintro ⟨rfl, rfl, rfl, rfl, rfl, rfl⟩
        exact ⟨rfl, rfl, rfl, rfl, rfl, rfl⟩

/-- The settings that load: texts as they stand, the port and the use of TLS as they are read. -/
theorem load_eq_ok_iff {e : Environment} {s : Settings} :
    load [] e = .ok s ↔
      e.settingsReadable = true ∧
        s.host = (e.text? .host).getD default.host ∧
        SettingName.port.ReadAs e Setting.readPort default.port s.port ∧
        s.project = (e.text? .project).getD default.project ∧
        SettingName.tlsEnabled.ReadAs e Setting.readBool default.tlsEnabled s.tlsEnabled ∧
        s.certificatePath = e.text? .certificatePath ∧ s.authToken = e.text? .authToken := by
  rw [load, ← read_eq_ok_iff]
  split
  · rename_i hreadable
    simp [Except.mapError_eq_ok_iff, hreadable]
  · rename_i hreadable
    simp [hreadable]

/-- A port that loads is one that there is. -/
theorem port_of_load {e : Environment} {s : Settings} (h : load [] e = .ok s) :
    1 ≤ s.port ∧ s.port ≤ 65535 := by
  obtain ⟨-, -, hport, -⟩ := load_eq_ok_iff.1 h
  rcases hport with ⟨-, hdefault⟩ | ⟨text, -, hread⟩
  · rw [hdefault]
    decide
  · exact (Setting.readPort_eq_ok_iff.1 hread).2

end Settings

/-! ## Environments that agree -/

namespace Environment

/-- Whether environments agree on everything but the variables of some settings. -/
structure AgreeApartFrom (names : List SettingName) (e e' : Environment) : Prop where
  bindings : e.bindings.entries.filter (fun p => lowerName p.1 ∉ names.map (·.variableName)) =
    e'.bindings.entries.filter (fun p => lowerName p.1 ∉ names.map (·.variableName))
  files : e.files = e'.files
  now : e.now = e'.now

theorem lastNamed_filter {α : Type} {name : String} {others : List String} (h : name ∉ others)
    (entries : List (String × α)) :
    lastNamed name (entries.filter fun p => lowerName p.1 ∉ others) = lastNamed name entries := by
  have hkept (p : String × α) : (lowerName p.1 ∉ others ∧ lowerName p.1 = name) ↔
      lowerName p.1 = name := by
    constructor
    · intro hp
      exact hp.2
    · intro hp
      exact ⟨hp ▸ h, hp⟩
  simp only [lastNamed, ← List.filter_reverse, List.find?_filter]
  simp [hkept]

theorem AgreeApartFrom.file?_eq {names : List SettingName} {e e' : Environment}
    (h : AgreeApartFrom names e e') (path : String) : e.file? path = e'.file? path := by
  rw [file?, file?, h.files]

theorem variableName_injective : Function.Injective SettingName.variableName := by
  intro n m h
  cases n <;> cases m <;> first | rfl | exact absurd h (by decide)

/-- Without a settings file, environments that agree apart from some settings give the others the
same. -/
theorem AgreeApartFrom.text?_eq {names : List SettingName} {e e' : Environment}
    (h : AgreeApartFrom names e e') (hfile : e.file? settingsFile = none) {n : SettingName}
    (hn : n ∉ names) : e.text? n = e'.text? n := by
  have hname : n.variableName ∉ names.map (·.variableName) := by
    rw [List.mem_map]
    rintro ⟨m, hm, hnames⟩
    exact hn (variableName_injective hnames ▸ hm)
  have hfile' : e'.file? settingsFile = none := h.file?_eq _ ▸ hfile
  have hbound : e.bound? n = e'.bound? n := by
    rw [bound?, bound?, ← lastNamed_filter hname, h.bindings, lastNamed_filter hname]
  rw [text?, text?, hbound, fileBound?, fileBound?, fileVariables, fileVariables, hfile, hfile']
  rfl

end Environment

end OnlineFeatures
