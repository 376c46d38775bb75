import OnlineFeatures.Proofs.Message.Lists

/-!
# How the records of a value combine

A value is read from any sequence of records. Those that belong to no member are kept as they came;
of the others only the end counts. The last one gives the member. If that is a list, the records of
the same list right before it belong to it as well, and their elements follow one another; how the
sender cut the list into records, packed or not, is not seen in the native value. `Combined` says
this without the readers. One record keeps it (`Combined.step`), so a whole sequence does
(`Value.foldlM_absorb_combined`), and `Value.decode?_combines` puts reading and its meaning
together.
-/

namespace OnlineFeatures

namespace Converter

/-- What a record of a member says by itself. -/
inductive Says : Converter → Field → Content → Prop
  | scalar {t : ScalarType} {f : Field} {x : t.Carrier} :
      t.Spells t.number f x → Says (.scalar t) f (t.content x)
  | list {t : ScalarType} {rs : List Record} {l : ListMessage t.Carrier} :
      (∀ r ∈ rs, r.WellFormed) → t.MadeOf rs l →
      Says (.list t) (.bytes (10 + t.number) (Record.writeAll rs)) (t.listContent l)
  | null (v : UInt64) : Says .null (.varint 19 v) (.null (VarintCoded.ofVarint v))

theorem Says.owns {m : Converter} {f : Field} {c : Content} (h : m.Says f c) : m.Owns f := by
  cases h with
  | scalar hx => exact hx.owns
  | list | null => exact ⟨rfl, rfl⟩

theorem says_scalar_iff {t : ScalarType} {f : Field} {c : Content} :
    (Converter.scalar t).Says f c ↔ ∃ x, t.Spells t.number f x ∧ t.content x = c := by
  constructor
  · rintro ⟨hx⟩
    exact ⟨_, hx, rfl⟩
  · rintro ⟨x, hx, rfl⟩
    exact .scalar hx

theorem Says.exists_list {t : ScalarType} {f : Field} {c : Content}
    (h : (Converter.list t).Says f c) :
    ∃ rs l, f = .bytes (10 + t.number) (Record.writeAll rs) ∧ (∀ r ∈ rs, r.WellFormed) ∧
      t.MadeOf rs l ∧
      c = t.listContent l := by
  cases h with
  | list hrs hl => exact ⟨_, _, rfl, hrs, hl, rfl⟩

theorem says_list_iff {t : ScalarType} {payload : Bytes} {l : ListMessage t.Carrier} :
    (Converter.list t).Says (.bytes (10 + t.number) payload) (t.listContent l) ↔
      Message.decode? payload = some l := by
  rw [ListMessage.decode?_eq_some_iff]
  constructor
  · intro h
    obtain ⟨rs, l', hfield, hrs, hl', hcontent⟩ := h.exists_list
    obtain rfl := t.listContent_injective hcontent
    obtain rfl := (Field.bytes.inj hfield).2
    exact ⟨rs, Record.readAll?_eq_some_iff.2 ⟨rfl, hrs⟩, hl'⟩
  · rintro ⟨rs, hrs, hl⟩
    obtain ⟨rfl, hwf⟩ := Record.readAll?_eq_some_iff.1 hrs
    exact .list hwf hl

theorem Says.list_unique {t : ScalarType} {f : Field} {l l' : ListMessage t.Carrier}
    (h : (Converter.list t).Says f (t.listContent l))
    (h' : (Converter.list t).Says f (t.listContent l')) : l = l' := by
  obtain ⟨rs, -, rfl, -⟩ := h.exists_list
  exact Option.some.inj ((says_list_iff.1 h).symm.trans (says_list_iff.1 h'))

/-- What a scalar or the null takes the place of does not matter. -/
theorem absorb_single_eq_taken_iff {m : Converter} {f : Field} (hm : ∀ t, m ≠ .list t)
    (hf : m.Owns f) (held : Option Content) {c : Content} :
    Content.absorb held f = .taken c ↔ m.Says f c := by
  rcases m with t | t | -
  · exact (Content.absorb_scalar hf held).trans says_scalar_iff.symm
  · exact absurd rfl (hm t)
  · obtain ⟨v, rfl, habsorb⟩ := Content.absorb_null hf held
    rw [habsorb]
    constructor
    · intro h
      exact Reading.taken.inj h ▸ .null v
    · rintro ⟨⟩
      rfl

/-- A list continues the list of its type that a value held. -/
theorem absorb_list_eq_taken_iff {t : ScalarType} {f : Field} (hf : (Converter.list t).Owns f)
    (held : Option Content) {c : Content} :
    Content.absorb held f = .taken c ↔
      ∃ l, (Converter.list t).Says f (t.listContent l) ∧
        c = t.listContent (((held.bind t.list?).getD ⟨[], []⟩).append l) := by
  obtain ⟨payload, rfl, habsorb⟩ := Content.absorb_list hf held
  rw [habsorb, Content.ofOption_eq_taken, Content.listFrom, ListMessage.mergeFrom_eq]
  simp only [Option.map_map, Option.map_eq_some_iff, says_list_iff]
  exact exists_congr fun l => and_congr_right' eq_comm

end Converter

/-! ## The end of a sequence -/

/-- Whether a record has content that its member, if it belongs to one, can be read from. -/
def Record.Readable (r : Record) : Prop := ∀ m : Converter, m.Owns r.field → ∃ c, m.Says r.field c

/-- Records that end in those of one list, which continue each other to a list. -/
def ScalarType.EndsIn (t : ScalarType) (rs : List Record) (l : ListMessage t.Carrier) : Prop :=
  ∃ before run ls, rs = before ++ run ∧ run ≠ [] ∧
    (∀ r ∈ before.getLast?, ¬ (Converter.list t).Owns r.field) ∧
    List.Forall₂ (fun r l => (Converter.list t).Says r.field (t.listContent l)) run ls ∧
    l = ⟨ls.flatMap (·.items), ls.flatMap (·.unknown)⟩

/-- What is left in a value by records that all belong to a member. -/
inductive Combined : List Record → Option Content → Prop
  | nothing : Combined [] none
  | single {m : Converter} {before : List Record} {r : Record} {c : Content} :
      (∀ t, m ≠ .list t) → m.Says r.field c → Combined (before ++ [r]) (some c)
  | list {t : ScalarType} {rs : List Record} {l : ListMessage t.Carrier} :
      t.EndsIn rs l → Combined rs (some (t.listContent l))

namespace ScalarType

variable {t : ScalarType}

theorem EndsIn.start {rs : List Record} (hrs : ∀ r ∈ rs.getLast?, ¬ (Converter.list t).Owns r.field)
    {r : Record} {l : ListMessage t.Carrier}
    (hr : (Converter.list t).Says r.field (t.listContent l)) :
    t.EndsIn (rs ++ [r]) l :=
  ⟨rs, [r], [l], rfl, by simp, hrs, .cons hr .nil, by simp⟩

theorem EndsIn.continue {rs : List Record} {l₀ : ListMessage t.Carrier} (hrs : t.EndsIn rs l₀)
    {r : Record} {l : ListMessage t.Carrier}
    (hr : (Converter.list t).Says r.field (t.listContent l)) :
    t.EndsIn (rs ++ [r]) (l₀.append l) := by
  obtain ⟨before, run, ls, rfl, hne, hbefore, hrun, rfl⟩ := hrs
  refine ⟨before, run ++ [r], ls ++ [l], by simp, by simp, hbefore,
    List.rel_append hrun (.cons hr .nil), ?_⟩
  simp [ListMessage.append]

theorem owns_of_forall₂ {run : List Record} {ls : List (ListMessage t.Carrier)}
    (h : List.Forall₂ (fun r l => (Converter.list t).Says r.field (t.listContent l)) run ls) :
    ∀ r ∈ run, (Converter.list t).Owns r.field :=
  ((List.forall₂_and_left _ _).1 (h.imp fun _ _ hl => ⟨hl.owns, hl⟩)).1

/-- The last of records that end in a list belongs to that list. -/
theorem EndsIn.owns_last {rs : List Record} {l : ListMessage t.Carrier} (h : t.EndsIn rs l) :
    ∃ r ∈ rs.getLast?, (Converter.list t).Owns r.field := by
  obtain ⟨before, run, ls, rfl, hne, -, hrun, -⟩ := h
  obtain ⟨run, r, rfl⟩ := (List.eq_nil_or_concat run).resolve_left hne
  exact ⟨r, by simp, owns_of_forall₂ hrun r (by simp)⟩

/-- A run cannot reach further back than another one that starts right after a record of another
member. -/
theorem eq_nil_of_run {before more : List Record}
    (hbefore : ∀ r ∈ (before ++ more).getLast?, ¬ (Converter.list t).Owns r.field)
    (hmore : ∀ r ∈ more, (Converter.list t).Owns r.field) : more = [] := by
  by_contra hne
  obtain ⟨more, r, rfl⟩ := (List.eq_nil_or_concat more).resolve_left hne
  exact hbefore r (by simp [← List.append_assoc]) (hmore r (by simp))

/-- Records end in one list at most. -/
theorem EndsIn.unique {rs : List Record} {l l' : ListMessage t.Carrier} (h : t.EndsIn rs l)
    (h' : t.EndsIn rs l') : l = l' := by
  obtain ⟨before, run, ls, rfl, -, hbefore, hrun, rfl⟩ := h
  obtain ⟨before', run', ls', heq, -, hbefore', hrun', rfl⟩ := h'
  have hruns : run = run' := by
    rcases List.append_eq_append_iff.1 heq with ⟨more, rfl, rfl⟩ | ⟨more, rfl, rfl⟩
    · rw [eq_nil_of_run hbefore' fun r hr => owns_of_forall₂ hrun r (List.mem_append_left _ hr),
        List.nil_append]
    · rw [eq_nil_of_run hbefore fun r hr => owns_of_forall₂ hrun' r (List.mem_append_left _ hr),
        List.nil_append]
  subst hruns
  rw [List.right_unique_forall₂' (fun _ _ _ h h' => h.list_unique h') hrun hrun']

end ScalarType

namespace Combined

theorem list?_eq_none {m : Converter} (hm : ∀ t, m ≠ .list t) {f : Field} {c : Content}
    (hc : m.Says f c) (t : ScalarType) : t.list? c = none := by
  cases hc with
  | scalar => exact t.list?_content _ _
  | list => exact absurd rfl (hm _)
  | null => exact t.list?_null _

/-- The list that a value holds is the one that the records end in; if there is none, they end in no
record of such a list. -/
theorem list?_cases {own : List Record} {held : Option Content} (h : Combined own held)
    (t : ScalarType) :
    (∃ l, held.bind t.list? = some l ∧ t.EndsIn own l) ∨
      held.bind t.list? = none ∧ ∀ r ∈ own.getLast?, ¬ (Converter.list t).Owns r.field := by
  cases h with
  | nothing => exact .inr ⟨rfl, fun r hr => by cases hr⟩
  | @single m before r c hm hc =>
    refine .inr ⟨list?_eq_none hm hc t, fun r' hr' howns => ?_⟩
    obtain rfl : r = r' := by simpa using hr'
    exact hm t (hc.owns.eq howns)
  | @list u rs l hl =>
    by_cases htu : t = u
    · subst htu
      exact .inl ⟨l, t.list?_listContent l, hl⟩
    · refine .inr ⟨ScalarType.list?_listContent_of_ne htu l, fun r hr howns => ?_⟩
      obtain ⟨r', hr', howns'⟩ := hl.owns_last
      obtain rfl : r = r' := Option.mem_unique hr hr'
      exact htu (Converter.list.inj (howns.eq howns'))

/-- The last record gives the member. -/
theorem last_cases {own : List Record} {c : Content} (h : Combined own (some c)) :
    ∃ (m : Converter) (r : Record), r ∈ own.getLast? ∧ m.Owns r.field ∧
      ((∀ t, m ≠ .list t) ∧ m.Says r.field c ∨
        ∃ t l, m = .list t ∧ t.EndsIn own l ∧ c = t.listContent l) := by
  cases h with
  | @single m before r c hm hc => exact ⟨m, r, by simp, hc.owns, .inl ⟨hm, hc⟩⟩
  | @list t rs l hl =>
    obtain ⟨r, hr, howns⟩ := hl.owns_last
    exact ⟨.list t, r, hr, howns, .inr ⟨t, l, rfl, hl, rfl⟩⟩

theorem not_some_of_none {own : List Record} (h : Combined own none) (c : Content) :
    ¬ Combined own (some c) := by
  intro hc
  obtain ⟨m, r, hr, -⟩ := hc.last_cases
  cases h
  cases hr

/-- Records combine to one content at most. -/
theorem unique {own : List Record} {held held' : Option Content} (h : Combined own held)
    (h' : Combined own held') : held = held' := by
  cases held with
  | none =>
    cases held' with
    | none => rfl
    | some c' => exact absurd h' (h.not_some_of_none c')
  | some c =>
    cases held' with
    | none => exact absurd h (h'.not_some_of_none c)
    | some c' =>
      -- the last record tells the member, and that is read in one way or continues one list
      obtain ⟨m, r, hr, howns, hc⟩ := h.last_cases
      obtain ⟨m', r', hr', howns', hc'⟩ := h'.last_cases
      obtain rfl : r = r' := Option.mem_unique hr hr'
      obtain rfl := howns.eq howns'
      rcases hc with ⟨hm, hc⟩ | ⟨t, l, rfl, hl, rfl⟩ <;>
        rcases hc' with ⟨hm', hc'⟩ | ⟨t', l', ht, hl', rfl⟩
      · have hread := Converter.absorb_single_eq_taken_iff hm howns none (c := c)
        have hread' := Converter.absorb_single_eq_taken_iff hm howns none (c := c')
        rw [Reading.taken.inj ((hread.2 hc).symm.trans (hread'.2 hc'))]
      · exact absurd ht (hm t')
      · exact absurd rfl (hm' t)
      · cases ht
        rw [hl.unique hl']

/-- One more record of a member: a value takes it up exactly if it can be read, and then holds what
all records combine to. -/
theorem step {own : List Record} {held : Option Content} (h : Combined own held) {r : Record}
    {m : Converter} (hr : m.Owns r.field) :
    (∀ c, Content.absorb held r.field = .taken c → Combined (own ++ [r]) (some c)) ∧
      ((∃ c, Content.absorb held r.field = .taken c) ↔ ∃ c, m.Says r.field c) := by
  by_cases hm : ∃ t, m = .list t
  · obtain ⟨t, rfl⟩ := hm
    simp only [Converter.absorb_list_eq_taken_iff hr]
    constructor
    · rintro c ⟨l, hl, rfl⟩
      -- a list goes on if it is held already, and starts anew behind any other member
      obtain ⟨l₀, hheld, hown⟩ | ⟨hheld, hown⟩ := h.list?_cases t
      · rw [hheld]
        exact .list (hown.continue hl)
      · rw [hheld]
        exact .list (.start hown hl)
    · constructor
      · rintro ⟨c, l, hl, rfl⟩
        exact ⟨_, hl⟩
      · rintro ⟨c, hc⟩
        obtain ⟨-, l, -, -, -, rfl⟩ := hc.exists_list
        exact ⟨_, l, hc, rfl⟩
  · have hm (t) : m ≠ .list t := fun h => hm ⟨t, h⟩
    have htaken {c} := Converter.absorb_single_eq_taken_iff hm hr held (c := c)
    exact ⟨fun c hc => .single hm (htaken.1 hc), exists_congr fun c => htaken⟩

end Combined

/-! ## Reading a sequence -/

namespace Value

/-- The records that belong to a member. -/
def own (rs : List Record) : List Record := rs.filter (·.field.member?.isSome)

/-- The records that belong to no member. -/
def foreign (rs : List Record) : List Record := rs.filter (·.field.member?.isNone)

/-- Whole sequences: each record that belongs to a member is combined with those before it, and each
other one is kept. -/
theorem foldlM_absorb_combined {before rs : List Record} {v : Value}
    (hv : Combined before v.content) :
    ((∃ w, rs.foldlM Message.absorb v = some w) ↔ ∀ r ∈ rs, r.Readable) ∧
      ∀ w, rs.foldlM Message.absorb v = some w →
        w.unknown = v.unknown ++ foreign rs ∧ Combined (before ++ own rs) w.content := by
  -- what is held and what has been read before are parameters, as both grow with each record
  induction rs generalizing before v with
  | nil =>
    refine ⟨by simp, ?_⟩
    rintro w ⟨⟩
    simpa [foreign, own] using hv
  | cons r rs ih =>
    rw [List.foldlM_cons, List.forall_mem_cons]
    cases hmember : r.field.member? with
    | none =>
      have habsorb : Message.absorb v r = some { v with unknown := v.unknown ++ [r] } := by
        rw [absorb_eq, Content.absorb_eq_foreign_iff.2 hmember]
      have hr : r.Readable := fun m hm => absurd hm (Field.member?_eq_none_iff.1 hmember m)
      rw [habsorb, Option.bind_eq_bind, Option.bind_some]
      obtain ⟨hread, hw⟩ := ih (v := { v with unknown := v.unknown ++ [r] }) hv
      refine ⟨hread.trans (and_iff_right hr).symm, fun w h => ?_⟩
      simpa [foreign, own, hmember] using hw w h
    | some m =>
      have hm := Field.member?_eq_some_iff.1 hmember
      obtain ⟨hcombined, hreads⟩ := hv.step hm
      have hreadable : r.Readable ↔ ∃ c, m.Says r.field c :=
        ⟨fun h => h m hm, fun h m' hm' => hm.eq hm' ▸ h⟩
      rw [hreadable, ← hreads, absorb_eq]
      cases hread : Content.absorb v.content r.field with
      | foreign => cases (Content.absorb_eq_foreign_iff.1 hread).symm.trans hmember
      | malformed => simp
      | taken c =>
        obtain ⟨hread, hw⟩ := ih (v := { v with content := some c }) (hcombined c hread)
        refine ⟨hread.trans (and_iff_right ⟨c, rfl⟩).symm, fun w h => ?_⟩
        simpa [foreign, own, hmember] using hw w h

/-- Any sequence of well-formed records is read as a value if the members among them can be read.
The value keeps the records that belong to no member and holds what the others combine to: nothing
if there are none, the last one's scalar, or the list that the last run of records of one list
spells. A list unwraps to the elements of that run in order, and so does not show how they were cut
into records. -/
theorem decode?_combines {rs : List Record} (hrs : ∀ r ∈ rs, r.WellFormed) :
    ((∃ v : Value, Message.decode? (Record.writeAll rs) = some v) ↔ ∀ r ∈ rs, r.Readable) ∧
      ∀ v : Value, Message.decode? (Record.writeAll rs) = some v →
        v.unknown = foreign rs ∧ (∀ held, Combined (own rs) held ↔ v.content = held) ∧
          ∀ (t : ScalarType) (l : ListMessage t.Carrier), t.EndsIn (own rs) l →
            v.unwrap = .list (l.items.map t.native) := by
  have hdecode : (Message.decode? (Record.writeAll rs) : Option Value) =
      rs.foldlM Message.absorb Message.empty := by
    rw [Message.decode?, Message.mergeFrom, Record.readAll?_eq_some_iff.2 ⟨rfl, hrs⟩,
      Option.bind_some]
  rw [hdecode]
  obtain ⟨hread, hw⟩ := @foldlM_absorb_combined [] rs Message.empty .nothing
  refine ⟨hread, fun v hv => ?_⟩
  obtain ⟨hunknown, hcombined⟩ := hw v hv
  refine ⟨hunknown, fun held => ⟨hcombined.unique, fun h => h ▸ hcombined⟩, fun t l hl => ?_⟩
  have hcontent : v.content = some (t.listContent l) := hcombined.unique (.list hl)
  rw [unwrap, hcontent, Option.map_some, Option.getD_some, t.unwrap_listContent]

/-- An integer, then a list of integers in two records with one of no member between them. -/
theorem decode?_combines_cut :
    let rs : List Record :=
      [.varint 4 7, .bytes 14 [0x08, 0x01], .varint 8 5, .bytes 14 [0x0a, 0x02, 0x02, 0x03]]
    (∀ r ∈ rs, r.WellFormed) ∧ (∀ r ∈ rs, r.Readable) ∧ foreign rs = [.varint 8 5] ∧
      Combined (own rs) (some (.int64List (.ofList [1, 2, 3]))) := by
  intro rs
  have hrs : ∀ r ∈ rs, r.WellFormed := by decide +kernel
  have hdecode : Message.decode? (Record.writeAll rs) =
      some (⟨some (.int64List (.ofList [1, 2, 3])), [.varint 8 5]⟩ : Value) := by decide +kernel
  obtain ⟨hread, hw⟩ := decode?_combines hrs
  obtain ⟨hunknown, hcombined, -⟩ := hw _ hdecode
  exact ⟨hrs, hread.1 ⟨_, hdecode⟩, hunknown.symm, (hcombined _).2 rfl⟩

end Value

end OnlineFeatures
