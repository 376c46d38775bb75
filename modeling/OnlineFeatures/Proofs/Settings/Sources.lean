import OnlineFeatures.Proofs.Settings.EnvFile
import OnlineFeatures.Proofs.Settings.Reading

/-!
# Where a setting comes from

A setting is what its option says, or else what the environment gives, or else what the settings
file gives, or else the default (`SettingName.Chosen`). The places are told by the names that stand
in them, without the reader: the environment by its variables (`Environment.Gives`) and the file by
its lines (`SettingName.GivenIn`).

In an environment that spells no variable in two ways, and with a plain settings file, these are the
texts that settings are read from (`Environment.gives_iff`,
`Environment.SettingsLines.givenIn_iff`). So there is one such value at most
(`SettingName.Chosen.unique`), and settings that load have it (`SettingName.chosen_of_readAs`).
-/

namespace OnlineFeatures

/-! ## Places -/

namespace SettingName

/-- Whether a name spells the variable of a setting, in any case of its letters. -/
def SpelledBy (n : SettingName) (name : String) : Prop := lowerName name = n.variableName

instance (n : SettingName) : DecidablePred n.SpelledBy :=
  fun _ => inferInstanceAs (Decidable (_ = _))

/-- What lines of variables give for a setting. Of the names that spell its variable the one that
came up last counts, with the value of its last line. -/
def GivenIn (n : SettingName) (lines : List (String × String)) (text : String) : Prop :=
  ∃ before name after, (lines.map (·.1)).eraseDups = before ++ name :: after ∧ n.SpelledBy name ∧
    (∀ later ∈ after, ¬ n.SpelledBy later) ∧ lines.reverse.lookup name = some text

end SettingName

namespace Environment

/-- What the variables of an environment give for a setting. -/
def Gives (e : Environment) (n : SettingName) (text : String) : Prop :=
  ∃ name, n.SpelledBy name ∧ e.bindings.find? name = some text

/-- Whether no two names of variables spell one setting. -/
def OneSpelling (e : Environment) : Prop :=
  ∀ n : SettingName, ∀ name ∈ e.bindings.keys, ∀ name' ∈ e.bindings.keys,
    n.SpelledBy name → n.SpelledBy name' → name = name'

/-- Whether the settings file is a plain one with the given lines. Without a file there are none. -/
inductive SettingsLines (e : Environment) : List (String × String) → Prop where
  | absent (h : e.file? settingsFile = none) : SettingsLines e []
  | plain {text : String} {lines : List (String × String)}
    (h : e.file? settingsFile = some (Utf8.encode text))
    (hplain : EnvFile.Plain EnvFile.lineEnds text.toList lines) : SettingsLines e lines

end Environment

/-- What a setting is: what the option says, or else the text that the environment gives, or else
the one that the lines of the settings file give, or else the default. -/
inductive SettingName.Chosen {α : Type} (n : SettingName) (option : Option α) (e : Environment)
    (lines : List (String × String)) (read : Native → Except SettingFault α) (default : α) :
    α → Prop where
  | option {a : α} (h : option = some a) : Chosen n option e lines read default a
  | environment {text : String} {a : α} (hoption : option = none) (h : e.Gives n text)
    (hread : read (.text text) = .ok a) : Chosen n option e lines read default a
  | file {text : String} {a : α} (hoption : option = none) (hgives : ∀ text, ¬ e.Gives n text)
    (h : n.GivenIn lines text) (hread : read (.text text) = .ok a) :
    Chosen n option e lines read default a
  | default (hoption : option = none) (hgives : ∀ text, ¬ e.Gives n text)
    (hlines : ∀ text, ¬ n.GivenIn lines text) : Chosen n option e lines read default default

/-! ## The last name that spells a setting -/

theorem lastNamed_eq_some_iff {α : Type} {name : String} {entries : List (String × α)} {a : α} :
    lastNamed name entries = some a ↔ ∃ before key after, entries = before ++ (key, a) :: after ∧
      lowerName key = name ∧ ∀ p ∈ after, lowerName p.1 ≠ name := by
  rw [lastNamed, Option.map_eq_some_iff]
  constructor
  · rintro ⟨⟨key, b⟩, hfind, rfl⟩
    obtain ⟨hname, after, before, hsplit, hafter⟩ := List.find?_eq_some_iff_append.1 hfind
    refine ⟨before.reverse, key, after.reverse, ?_, of_decide_eq_true hname, ?_⟩
    · simpa using congrArg List.reverse hsplit
    · intro p hp
      simpa using hafter p (List.mem_reverse.1 hp)
  · rintro ⟨before, key, after, rfl, hname, hafter⟩
    refine ⟨(key, a), List.find?_eq_some_iff_append.2
      ⟨decide_eq_true hname, after.reverse, before.reverse, by simp, ?_⟩, rfl⟩
    intro p hp
    simpa using hafter p (List.mem_reverse.1 hp)

/-- In a map the last name counts, whatever its value. -/
theorem lastNamed_entries_iff {α : Type} {name : String} {m : OrderedMap α} {a : α} :
    lastNamed name m.entries = some a ↔ ∃ before key after, m.keys = before ++ key :: after ∧
      lowerName key = name ∧ (∀ later ∈ after, lowerName later ≠ name) ∧ m.find? key = some a := by
  rw [lastNamed_eq_some_iff]
  constructor
  · rintro ⟨before, key, after, hentries, hname, hafter⟩
    refine ⟨before.map (·.1), key, after.map (·.1), ?_, hname, by simpa using hafter, ?_⟩
    · rw [OrderedMap.keys, hentries, List.map_append, List.map_cons]
    · rw [OrderedMap.find?_eq_some_iff_mem, hentries]
      exact List.mem_append_right _ List.mem_cons_self
  · rintro ⟨before, key, after, hkeys, hname, hafter, hfind⟩
    obtain ⟨front, back, hentries, rfl, hback⟩ := List.map_eq_append_iff.1 hkeys
    obtain ⟨⟨key', b⟩, back, rfl, rfl, rfl⟩ := List.map_eq_cons_iff.1 hback
    have hmem : (key', b) ∈ m.entries := hentries ▸ List.mem_append_right _ List.mem_cons_self
    obtain rfl := Option.some.inj ((OrderedMap.find?_eq_some_iff_mem.2 hmem).symm.trans hfind)
    exact ⟨front, key', back, hentries, hname, by simpa using hafter⟩

/-! ## Texts -/

namespace Environment

variable {e : Environment} {n : SettingName} {text : String} {lines : List (String × String)}

/-- The environment gives a setting the text of its one variable. -/
theorem gives_iff (h : e.OneSpelling) : e.Gives n text ↔ e.bound? n = some text := by
  rw [bound?, lastNamed_entries_iff]
  constructor
  · rintro ⟨name, hname, hfind⟩
    have hmem : name ∈ e.bindings.keys :=
      List.mem_map.2 ⟨_, OrderedMap.find?_eq_some_iff_mem.1 hfind, rfl⟩
    obtain ⟨before, after, hkeys⟩ := List.append_of_mem hmem
    refine ⟨before, name, after, hkeys, hname, ?_, hfind⟩
    intro later hlater hspelled
    have hsame : later = name := by
      refine h n later ?_ name hmem hspelled hname
      rw [hkeys]
      exact List.mem_append_right _ (List.mem_cons_of_mem _ hlater)
    have hnodup : e.bindings.keys.Nodup := e.bindings.nodup
    rw [hkeys] at hnodup
    exact (List.nodup_cons.1 (List.nodup_append.1 hnodup).2.1).1 (hsame ▸ hlater)
  · rintro ⟨before, name, after, -, hname, -, hfind⟩
    exact ⟨name, hname, hfind⟩

theorem not_gives_iff (h : e.OneSpelling) : (∀ text, ¬ e.Gives n text) ↔ e.bound? n = none := by
  simp only [gives_iff h, Option.eq_none_iff_forall_ne_some, ne_eq]

/-- The settings file gives a setting the text that its lines give. -/
theorem SettingsLines.givenIn_iff (h : e.SettingsLines lines) :
    n.GivenIn lines text ↔ e.fileBound? n = some text := by
  have hentries : e.fileVariables =
      (OrderedMap.ofList (lines.map fun line => (line.1, some line.2))).entries := by
    cases h with
    | absent h =>
      rw [fileVariables, h]
      rfl
    | plain h hplain =>
      rw [fileVariables, h, Option.bind_some, Utf8.decode?_encode,
        ← EnvFile.read_of_plain hplain e.bindings.entries]
      rfl
  have hkeys : (lines.map fun line => (line.1, some line.2)).map (·.1) = lines.map (·.1) := by
    rw [List.map_map]
    rfl
  have hlookup (name : String) : (lines.map fun line => (line.1, some line.2)).reverse.lookup name =
      (lines.reverse.lookup name).map some := by
    rw [← List.map_reverse]
    exact OrderedMap.lookup_map_values some name lines.reverse
  have hbound : e.fileBound? n = some text ↔
      lastNamed n.variableName e.fileVariables = some (some text) := by
    rw [fileBound?]
    cases lastNamed n.variableName e.fileVariables <;> simp
  -- both sides now look for the last name among the keys, in the order in which they came up
  rw [hbound, hentries, lastNamed_entries_iff]
  simp only [OrderedMap.keys_ofList, OrderedMap.find?_ofList, hkeys, hlookup,
    Option.map_eq_some_iff, Option.some.injEq, exists_eq_right, SettingName.GivenIn,
    SettingName.SpelledBy, ne_eq]

theorem SettingsLines.not_givenIn_iff (h : e.SettingsLines lines) :
    (∀ text, ¬ n.GivenIn lines text) ↔ e.fileBound? n = none := by
  simp only [h.givenIn_iff, Option.eq_none_iff_forall_ne_some, ne_eq]

end Environment

/-! ## What is chosen -/

namespace SettingName

variable {α : Type} {n : SettingName} {option : Option α} {e : Environment}
  {lines : List (String × String)} {read : Native → Except SettingFault α} {default a : α}

/-- What is chosen is the option, or else what the text of the setting is read as. -/
theorem chosen_iff (hone : e.OneSpelling) (hlines : e.SettingsLines lines) :
    n.Chosen option e lines read default a ↔
      option = some a ∨ option = none ∧ n.ReadAs e read default a := by
  constructor
  · intro h
    cases h with
    | option h => exact .inl h
    | environment hoption h hread =>
      rw [Environment.gives_iff hone] at h
      exact .inr ⟨hoption, .inr ⟨_, by rw [Environment.text?, h, Option.some_or], hread⟩⟩
    | file hoption hgives h hread =>
      rw [Environment.not_gives_iff hone] at hgives
      rw [hlines.givenIn_iff] at h
      exact .inr ⟨hoption, .inr ⟨_, by rw [Environment.text?, hgives, h, Option.none_or], hread⟩⟩
    | default hoption hgives hnone =>
      rw [Environment.not_gives_iff hone] at hgives
      rw [hlines.not_givenIn_iff] at hnone
      exact .inr ⟨hoption, .inl ⟨by rw [Environment.text?, hgives, hnone, Option.none_or], rfl⟩⟩
  · rintro (h | ⟨hoption, ⟨hnone, rfl⟩ | ⟨text, htext, hread⟩⟩)
    · exact .option h
    · obtain ⟨hbound, hfile⟩ := Option.or_eq_none_iff.1 hnone
      exact .default hoption ((Environment.not_gives_iff hone).2 hbound)
        (hlines.not_givenIn_iff.2 hfile)
    · rcases Option.or_eq_some_iff.1 htext with hbound | ⟨hbound, hfile⟩
      · exact .environment hoption ((Environment.gives_iff hone).2 hbound) hread
      · exact .file hoption ((Environment.not_gives_iff hone).2 hbound)
          (hlines.givenIn_iff.2 hfile) hread

theorem Chosen.unique {a' : α} (hone : e.OneSpelling) (hlines : e.SettingsLines lines)
    (h : n.Chosen option e lines read default a) (h' : n.Chosen option e lines read default a') :
    a = a' := by
  rw [chosen_iff hone hlines] at h h'
  rcases h with h | ⟨hoption, hread⟩ <;> rcases h' with h' | ⟨hoption', hread'⟩
  · exact Option.some.inj (h.symm.trans h')
  · cases h.symm.trans hoption'
  · cases hoption.symm.trans h'
  · exact hread.unique rfl hread'

/-- What a setting is read as is in force unless the option says something else. -/
theorem chosen_of_readAs (hone : e.OneSpelling) (hlines : e.SettingsLines lines)
    (h : n.ReadAs e read default a) : n.Chosen option e lines read default (option.getD a) := by
  rw [chosen_iff hone hlines]
  cases option with
  | none => exact .inr ⟨rfl, h⟩
  | some given => exact .inl rfl

end SettingName

end OnlineFeatures
