import OnlineFeatures.Proofs.Message.Features

/-!
# What a message is read from

Which records of its bytes a message is read from, field by field. A repeated field holds what its
records are read as, in order (`FeaturesResponse.fieldValues_of_decode?`). A map holds the last of
the entries of each key, and the records of other fields are nothing to it
(`FieldValues.maps_of_decode?`). An entry that lacks its key or its value has the default of its
type there (`FieldMap.readEntry?_defaults`).
-/

namespace OnlineFeatures

/-! ## Records of one field -/

namespace Record

/-- The content of a length-delimited record of a number. -/
def contentOf? (number : Nat) (r : Record) : Option Bytes :=
  match r.field with
  | .bytes n content => if n = number then some content else none
  | _ => none

/-- The contents of the length-delimited records of a number, in order. -/
def contentsOf (number : Nat) (rs : List Record) : List Bytes := rs.filterMap (contentOf? number)

theorem contentOf?_eq_some_iff {number : Nat} {r : Record} {content : Bytes} :
    contentOf? number r = some content ↔ r.field = .bytes number content := by
  rw [contentOf?]
  split
  · rename_i n content' hfield
    rw [hfield]
    by_cases hn : n = number
    · simp [hn]
    · simp [hn]
  · rename_i hfield
    simp only [reduceCtorEq, false_iff]
    exact hfield number content

end Record

/-- What one slot of a message is read from, when the records of one number act on it by their
contents and all others leave it alone. -/
theorem Message.slot_of_foldlM_absorb {μ σ : Type} [Message μ] (number : Nat) (slot : μ → σ)
    (act : σ → Bytes → σ)
    (hact : ∀ {m m' r}, Message.absorb m r = some m' →
      slot m' = (Record.contentOf? number r).elim (slot m) (act (slot m)))
    {rs : List Record} {m m' : μ} (h : rs.foldlM Message.absorb m = some m') :
    slot m' = (Record.contentsOf number rs).foldl act (slot m) := by
  induction rs generalizing m with
  | nil =>
    obtain rfl : m = m' := by simpa using h
    rfl
  | cons r rs ih =>
    rw [List.foldlM_cons] at h
    obtain ⟨next, habsorb, hrest⟩ := Option.bind_eq_some_iff.1 h
    rw [ih hrest, hact habsorb, Record.contentsOf, Record.contentsOf]
    cases hcontent : Record.contentOf? number r with
    | none =>
      rw [List.filterMap_cons_none hcontent]
      rfl
    | some content =>
      rw [List.filterMap_cons_some hcontent]
      rfl

/-! ## Repeated fields -/

theorem FeaturesResponse.absorb_fieldValues {m m' : FeaturesResponse} {r : Record}
    (h : Message.absorb m r = some m') : m'.fieldValues.map some =
      (Record.contentOf? 1 r).elim (m.fieldValues.map some) fun content =>
        m.fieldValues.map some ++ [Message.decode? content] := by
  cases hcontent : Record.contentOf? 1 r with
  | some content =>
    simp only [Message.absorb, Record.contentOf?_eq_some_iff.1 hcontent] at h
    obtain ⟨f, hf, rfl⟩ := Option.map_eq_some_iff.1 h
    simp [hf]
  | none =>
    simp only [Message.absorb] at h
    split at h
    · rename_i content hfield
      rw [Record.contentOf?_eq_some_iff.2 hfield] at hcontent
      cases hcontent
    · cases h
      rfl

/-- The field values of a response are its records of that field, read in order. -/
theorem FeaturesResponse.fieldValues_of_decode? {bs : Bytes} {answer : FeaturesResponse}
    (h : Message.decode? bs = some answer) :
    ∃ rs, Record.readAll? bs = some rs ∧
      (Record.contentsOf 1 rs).map Message.decode? = answer.fieldValues.map some := by
  obtain ⟨rs, hrs, hfold⟩ := Option.bind_eq_some_iff.1 h
  refine ⟨rs, hrs, ?_⟩
  have hslot := Message.slot_of_foldlM_absorb 1
    (fun m : FeaturesResponse => m.fieldValues.map some)
    (fun vs content => vs ++ [Message.decode? content])
    absorb_fieldValues hfold
  rw [hslot, List.foldl_append_eq_append, List.map_eq_flatMap]
  rfl

/-! ## Maps -/

namespace FieldMap

/-- The map with one more entry, if there is one. -/
def enter {α : Type} (m : FieldMap α) : Option (String × α) → FieldMap α
  | some (key, a) => m.insert key a
  | none => m

theorem foldl_enter {α β : Type} (f : β → Option (String × α)) (bs : List β) (m : FieldMap α) :
    bs.foldl (fun m b => m.enter (f b)) m =
      (bs.filterMap f).foldl (fun m (key, a) => m.insert key a) m := by
  induction bs generalizing m with
  | nil => rfl
  | cons b bs ih =>
    rw [List.foldl_cons, ih]
    cases hb : f b with
    | none =>
      rw [List.filterMap_cons_none hb]
      rfl
    | some entry =>
      rw [List.filterMap_cons_some hb]
      rfl

variable {α : Type} [EntryValue α]

/-- The entry that the content of a record is read as, if it is entered. -/
def entered? (number : Nat) (content : Bytes) : Option (String × α) :=
  (FieldMap.readEntry? number content).bind Sum.getLeft?

/-- The entries of the map of a number, in the order in which they come. -/
def entriesOf (number : Nat) (rs : List Record) : List (String × α) :=
  (Record.contentsOf number rs).filterMap (entered? number)

/-- An entry that is kept as a record is not entered. -/
theorem enter_entered? {number : Nat} {content : Bytes} {entry : (String × α) ⊕ Record}
    (h : readEntry? number content = some entry) (m : FieldMap α) :
    m.enter (entered? number content) = entry.elim (fun p => m.insert p.1 p.2) fun _ => m := by
  rw [entered?, h]
  cases entry with
  | inl entry => rfl
  | inr kept => rfl

/-- What is read of a map is made of its entries, each put in where it comes. -/
theorem slot_of_foldlM_absorb {μ : Type} [Message μ] (number : Nat) (slot : μ → FieldMap α)
    (hact : ∀ {m m' r}, Message.absorb m r = some m' →
      slot m' = (Record.contentOf? number r).elim (slot m) fun content =>
        (slot m).enter (entered? number content))
    {rs : List Record} {m m' : μ} (h : rs.foldlM Message.absorb m = some m')
    (hempty : slot m = empty) : slot m' = ofList (entriesOf number rs) := by
  rw [Message.slot_of_foldlM_absorb number slot (fun m content => m.enter (entered? number content))
    hact h, foldl_enter, hempty]
  rfl

end FieldMap

namespace FieldValues

theorem absorb_fields {m m' : FieldValues} {r : Record} (h : Message.absorb m r = some m') :
    m'.fields = (Record.contentOf? 1 r).elim m.fields fun content =>
      m.fields.enter (FieldMap.entered? 1 content) := by
  cases hcontent : Record.contentOf? 1 r with
  | some content =>
    simp only [Message.absorb, Record.contentOf?_eq_some_iff.1 hcontent] at h
    obtain ⟨entry, hentry, rfl⟩ := Option.map_eq_some_iff.1 h
    rw [Option.elim_some, FieldMap.enter_entered? hentry]
    cases entry with
    | inl entry => rfl
    | inr kept => rfl
  | none =>
    simp only [Message.absorb] at h
    split at h
    · rename_i content hfield
      rw [Record.contentOf?_eq_some_iff.2 hfield] at hcontent
      cases hcontent
    · obtain ⟨entry, -, rfl⟩ := Option.map_eq_some_iff.1 h
      cases entry <;> rfl
    · cases h
      rfl

theorem absorb_statuses {m m' : FieldValues} {r : Record} (h : Message.absorb m r = some m') :
    m'.statuses = (Record.contentOf? 2 r).elim m.statuses fun content =>
      m.statuses.enter (FieldMap.entered? 2 content) := by
  cases hcontent : Record.contentOf? 2 r with
  | some content =>
    simp only [Message.absorb, Record.contentOf?_eq_some_iff.1 hcontent] at h
    obtain ⟨entry, hentry, rfl⟩ := Option.map_eq_some_iff.1 h
    rw [Option.elim_some, FieldMap.enter_entered? hentry]
    cases entry with
    | inl entry => rfl
    | inr kept => rfl
  | none =>
    simp only [Message.absorb] at h
    split at h
    · obtain ⟨entry, -, rfl⟩ := Option.map_eq_some_iff.1 h
      cases entry <;> rfl
    · rename_i content hfield
      rw [Record.contentOf?_eq_some_iff.2 hfield] at hcontent
      cases hcontent
    · cases h
      rfl

/-- The two maps of field values are made of their own entries, of which the last of each key
counts. -/
theorem maps_of_decode? {content : Bytes} {v : FieldValues} (h : Message.decode? content = some v) :
    ∃ rs, Record.readAll? content = some rs ∧ v.fields = .ofList (FieldMap.entriesOf 1 rs) ∧
      v.statuses = .ofList (FieldMap.entriesOf 2 rs) := by
  obtain ⟨rs, hrs, hfold⟩ := Option.bind_eq_some_iff.1 h
  exact ⟨rs, hrs, FieldMap.slot_of_foldlM_absorb 1 (·.fields) absorb_fields hfold rfl,
    FieldMap.slot_of_foldlM_absorb 2 (·.statuses) absorb_statuses hfold rfl⟩

end FieldValues

/-! ## Entries -/

namespace MapEntry

variable {α : Type} [EntryValue α]

theorem absorb_key_of_number {e e' : MapEntry α} {r : Record} (hr : r.field.number ≠ 1)
    (h : Message.absorb e r = some e') : e'.key = e.key := by
  have hother (content : Bytes) : r.field ≠ .bytes 1 content :=
    fun hfield => hr (by rw [hfield]; rfl)
  rw [absorb_other hother] at h
  split at h
  · cases h
    rfl
  · cases h
    rfl
  · cases h

theorem absorb_value_of_number [LawfulEntryValue α] {e e' : MapEntry α} {r : Record}
    (hr : r.field.number ≠ 2) (h : Message.absorb e r = some e') : e'.value = e.value := by
  by_cases hkey : ∃ content, r.field = .bytes 1 content
  · obtain ⟨content, hkey⟩ := hkey
    rw [absorb_key hkey] at h
    obtain ⟨key, -, rfl⟩ := Option.map_eq_some_iff.1 h
    rfl
  · rw [absorb_other fun content h => hkey ⟨content, h⟩,
      LawfulEntryValue.foreign_of_number hr] at h
    cases h
    rfl

end MapEntry

/-- An entry without a key is entered under the empty text, and one without a value with the
default. -/
theorem FieldMap.readEntry?_defaults {α : Type} [EntryValue α] [LawfulEntryValue α] {number : Nat}
    {content : Bytes} {key : String} {a : α}
    (h : FieldMap.readEntry? number content = some (.inl (key, a))) :
    ∃ rs, Record.readAll? content = some rs ∧ ((∀ r ∈ rs, r.field.number ≠ 1) → key = "") ∧
      ((∀ r ∈ rs, r.field.number ≠ 2) → a = EntryValue.missing) := by
  rw [FieldMap.readEntry?, Option.map_eq_some_iff] at h
  obtain ⟨e, he, h⟩ := h
  obtain ⟨rs, hrs, hfold⟩ := Option.bind_eq_some_iff.1 he
  split at h
  · obtain ⟨rfl, rfl⟩ := Prod.mk.inj (Sum.inl.inj h)
    refine ⟨rs, hrs, fun hkeys => ?_, fun hvalues => ?_⟩
    · exact Message.foldlM_absorb_invariant (P := fun e : MapEntry α => e.key = "") hkeys
        (fun hm hr habsorb => (MapEntry.absorb_key_of_number hr habsorb).trans hm) rfl hfold
    · have hnone :=
        Message.foldlM_absorb_invariant (P := fun e : MapEntry α => e.value = none) hvalues
          (fun hm hr habsorb => (MapEntry.absorb_value_of_number hr habsorb).trans hm) rfl hfold
      rw [hnone, Option.getD_none]
  · cases h

end OnlineFeatures
