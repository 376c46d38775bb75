import OnlineFeatures.Message.Features
import OnlineFeatures.Proofs.Message.Scalars
import OnlineFeatures.Proofs.Message.Value

/-!
# The messages of the feature call

Requests, responses and the messages they hold are lawful. Their parts are messages and maps that
are valid themselves. An entry of a map field may be kept instead of entered; it then stands among
the unknown records under the number of the map, and is kept again when it is read again
(`Message.kept_of_readEntry?`).
-/

namespace OnlineFeatures

open Message (Valid)

/-- An entry that a message keeps is kept again. -/
theorem Message.kept_of_readEntry? {μ α : Type} [Message μ] [KeepsUnknown μ] [EntryValue α]
    [LawfulEntryValue α] {number : Nat} {content : Bytes} {r : Record} (hn : Tag.Fits number)
    (hkeep : ∀ m content', FieldMap.readEntry? (α := α) number content' = some (.inr r) →
      Message.absorb m (.bytes number content') = some (Message.keep (μ := μ) m r))
    (h : FieldMap.readEntry? (α := α) number content = some (.inr r)) : Message.Kept μ r := by
  obtain ⟨content', rfl, hagain⟩ := FieldMap.readEntry?_kept h
  exact fun hlen => ⟨Message.wellFormed_bytes hn hlen, fun m => hkeep m content' (hagain hlen)⟩

theorem FieldMap.wellFormed_records {α : Type} [EntryValue α] {m : FieldMap α} {number : Nat}
    (hn : Tag.Fits number) {r : Record} (h : r ∈ m.records number)
    (hlen : r.spelling.length < Message.sizeLimit) : r.WellFormed := by
  obtain ⟨entry, -, rfl⟩ := FieldMap.mem_records h
  exact Message.wellFormed_bytes hn hlen

theorem Message.wellFormed_nested {μ : Type} [Message μ] {xs : List μ} {number : Nat}
    (hn : Tag.Fits number) {r : Record} (h : r ∈ xs.map (Message.nested number))
    (hlen : r.spelling.length < Message.sizeLimit) : r.WellFormed := by
  obtain ⟨x, -, rfl⟩ := List.mem_map.1 h
  exact Message.wellFormed_bytes hn hlen

/-! ## Entity rows -/

namespace EntityRow

instance : KeepsUnknown EntityRow where
  unknown m := m.unknown
  setUnknown m u := { m with unknown := u }
  unknown_setUnknown _ _ := rfl
  setUnknown_setUnknown _ _ _ := rfl
  setUnknown_unknown _ := rfl

/-- The timestamp and the values of an entity row are valid. -/
structure Parts (m : EntityRow) : Prop where
  timestamp : ∀ t, m.timestamp = some t → Valid t
  fields : m.fields.Valid

theorem absorb_cases {m m' : EntityRow} {r : Record} (hm : m.Parts) (hr : r.WellFormed)
    (h : Message.absorb m r = some m') :
    (m'.Parts ∧ m'.unknown = m.unknown) ∨
      ∃ r', Message.Kept EntityRow r' ∧ m' = Message.keep m r' := by
  have habsorb := h
  simp only [Message.absorb] at h
  split at h
  · obtain ⟨t, ht, rfl⟩ := Option.map_eq_some_iff.1 h
    refine .inl ⟨⟨fun t' ht' => ?_, hm.fields⟩, rfl⟩
    obtain rfl : t = t' := Option.some.inj ht'
    refine Message.valid_mergeFrom ?_ ht
    cases hheld : m.timestamp with
    | none => exact Message.valid_empty
    | some held => exact hm.timestamp held hheld
  · obtain ⟨entry, hentry, rfl⟩ := Option.map_eq_some_iff.1 h
    cases entry with
    | inl entry =>
      exact .inl ⟨⟨hm.timestamp, hm.fields.insert (FieldMap.valid_of_readEntry? hentry)⟩, rfl⟩
    | inr kept =>
      refine .inr
        ⟨kept, Message.kept_of_readEntry? (by decide) (fun w content' hagain => ?_) hentry, rfl⟩
      simp only [Message.absorb, Record.bytes, hagain]
      rfl
  · refine .inr (Message.keeps_of_foreign hr (fun w => ?_) habsorb)
    simp only [Message.absorb]
    rfl

theorem absorb_entry (t : Option Timestamp) (fields : FieldMap Value) (content : Bytes)
    (key : String) (v : Value) (h : FieldMap.readEntry? 2 content = some (.inl (key, v))) :
    Message.absorb (EntityRow.mk t fields []) (.bytes 2 content) =
      some (EntityRow.mk t (fields.insert key v) []) := by
  simp only [Message.absorb, Record.bytes, h]
  rfl

theorem foldlM_absorb_timestamp {t : Option Timestamp} (ht : ∀ t', t = some t' → Valid t')
    (hlen : ∀ r ∈ t.toList.map (Message.nested 1), r.spelling.length < Message.sizeLimit) :
    (t.toList.map (Message.nested 1)).foldlM Message.absorb (Message.empty : EntityRow) =
      some ⟨t, .empty, []⟩ := by
  cases t with
  | none => rfl
  | some t =>
    have hread : Message.mergeFrom Message.empty (Message.encode t) = some t :=
      Message.decode?_nested (ht t rfl) (hlen (Message.nested 1 t) (by simp))
    have hstep : Message.absorb (Message.empty : EntityRow) (Message.nested 1 t) =
        some ⟨some t, .empty, []⟩ := by
      show (Message.mergeFrom Message.empty (Message.encode t)).map _ = _
      rw [hread]
      rfl
    simp [hstep]

instance : LawfulMessage EntityRow where
  known m := m.timestamp.toList.map (Message.nested 1) ++ m.fields.records 2
  Parts := Parts
  records_eq _ := rfl
  parts_setUnknown h := ⟨h.timestamp, h.fields⟩
  parts_empty := ⟨by rintro _ ⟨⟩, FieldMap.valid_empty⟩
  unknown_empty := rfl
  absorb_cases := absorb_cases
  wellFormed_known hr hlen := by
    rcases List.mem_append.1 hr with hr | hr
    · exact Message.wellFormed_nested (by decide) hr hlen
    · exact FieldMap.wellFormed_records (by decide) hr hlen
  rebuild {m} hm hlen := by
    obtain ⟨htimestamp, hfields⟩ := List.forall_mem_append.1 hlen
    exact Message.foldlM_absorb_append (foldlM_absorb_timestamp hm.timestamp htimestamp)
      (FieldMap.foldlM_absorb_records (EntityRow.mk m.timestamp · []) (absorb_entry m.timestamp)
        hm.fields hfields)

end EntityRow

/-! ## Requests -/

namespace FeaturesRequest

instance : KeepsUnknown FeaturesRequest where
  unknown m := m.unknown
  setUnknown m u := { m with unknown := u }
  unknown_setUnknown _ _ := rfl
  setUnknown_setUnknown _ _ _ := rfl
  setUnknown_unknown _ := rfl

/-- The entity rows and the references of a request are valid. -/
structure Parts (m : FeaturesRequest) : Prop where
  entityRows : ∀ e ∈ m.entityRows, Valid e
  features : ∀ f ∈ m.features, Valid f

theorem absorb_cases {m m' : FeaturesRequest} {r : Record} (hm : m.Parts) (hr : r.WellFormed)
    (h : Message.absorb m r = some m') :
    (m'.Parts ∧ m'.unknown = m.unknown) ∨
      ∃ r', Message.Kept FeaturesRequest r' ∧ m' = Message.keep m r' := by
  have habsorb := h
  simp only [Message.absorb] at h
  split at h
  · obtain ⟨e, he, rfl⟩ := Option.map_eq_some_iff.1 h
    refine .inl ⟨⟨List.forall_mem_append.2 ⟨hm.entityRows, ?_⟩, hm.features⟩, rfl⟩
    exact List.forall_mem_singleton.2 (Message.valid_of_decode? he)
  · obtain ⟨f, hf, rfl⟩ := Option.map_eq_some_iff.1 h
    refine .inl ⟨⟨hm.entityRows, List.forall_mem_append.2 ⟨hm.features, ?_⟩⟩, rfl⟩
    exact List.forall_mem_singleton.2 (Message.valid_of_decode? hf)
  · obtain ⟨project, -, rfl⟩ := Option.map_eq_some_iff.1 h
    exact .inl ⟨⟨hm.entityRows, hm.features⟩, rfl⟩
  · refine .inr (Message.keeps_of_foreign hr (fun w => ?_) habsorb)
    simp only [Message.absorb]
    rfl

theorem absorb_row {rows : List EntityRow} {content : Bytes} {e : EntityRow}
    (he : Message.decode? content = some e) :
    Message.absorb (FeaturesRequest.mk rows [] "" []) (.bytes 2 content) =
      some (FeaturesRequest.mk (rows ++ [e]) [] "" []) := by
  simp only [Message.absorb, Record.bytes, he]
  rfl

/-- The records that follow those of the rows give the rest of a request. -/
theorem foldlM_absorb_rest {rs : List Record} {rows : List EntityRow}
    {features : List ReferenceMessage} (project : String)
    (hrs : rs.foldlM Message.absorb Message.empty = some (FeaturesRequest.mk rows [] "" []))
    (hvalid : ∀ f ∈ features, Valid f)
    (hlen : ∀ r ∈ features.map (Message.nested 4), r.spelling.length < Message.sizeLimit) :
    (rs ++ features.map (Message.nested 4) ++ Record.unlessBlank 5 project).foldlM Message.absorb
      Message.empty = some (FeaturesRequest.mk rows features project []) := by
  refine Message.foldlM_absorb_append (Message.foldlM_absorb_append hrs
    (Message.foldlM_absorb_nested (FeaturesRequest.mk rows · "" []) ?_ hvalid hlen))
    (Record.foldlM_unlessBlank (FeaturesRequest.mk rows features · []) (fun _ _ => rfl) project)
  intro fs content f hf
  simp only [Message.absorb, Record.bytes, hf]
  rfl

instance : LawfulMessage FeaturesRequest where
  known m := m.entityRows.map (Message.nested 2) ++ m.features.map (Message.nested 4) ++
    Record.unlessBlank 5 m.project
  Parts := Parts
  records_eq _ := rfl
  parts_setUnknown h := ⟨h.entityRows, h.features⟩
  parts_empty := ⟨by rintro _ ⟨⟩, by rintro _ ⟨⟩⟩
  unknown_empty := rfl
  absorb_cases := absorb_cases
  wellFormed_known {m r} hr hlen := by
    simp only [List.mem_append] at hr
    rcases hr with (hr | hr) | hr
    · exact Message.wellFormed_nested (by decide) hr hlen
    · exact Message.wellFormed_nested (by decide) hr hlen
    · exact Record.wellFormed_unlessBlank (by decide) hr hlen
  rebuild {m} hm hlen := by
    obtain ⟨hfirst, -⟩ := List.forall_mem_append.1 hlen
    obtain ⟨hrows, hfeatures⟩ := List.forall_mem_append.1 hfirst
    refine foldlM_absorb_rest m.project ?_ hm.features hfeatures
    exact Message.foldlM_absorb_nested (FeaturesRequest.mk · [] "" [])
      (fun rows content e => absorb_row)
      hm.entityRows hrows

end FeaturesRequest

/-! ## Responses -/

namespace FieldValues

instance : KeepsUnknown FieldValues where
  unknown m := m.unknown
  setUnknown m u := { m with unknown := u }
  unknown_setUnknown _ _ := rfl
  setUnknown_setUnknown _ _ _ := rfl
  setUnknown_unknown _ := rfl

theorem absorb_cases {m m' : FieldValues} {r : Record} (hm : m.fields.Valid) (hr : r.WellFormed)
    (h : Message.absorb m r = some m') :
    (m'.fields.Valid ∧ m'.unknown = m.unknown) ∨
      ∃ r', Message.Kept FieldValues r' ∧ m' = Message.keep m r' := by
  have habsorb := h
  simp only [Message.absorb] at h
  split at h
  · obtain ⟨entry, hentry, rfl⟩ := Option.map_eq_some_iff.1 h
    cases entry with
    | inl entry => exact .inl ⟨hm.insert (FieldMap.valid_of_readEntry? hentry), rfl⟩
    | inr kept =>
      refine .inr
        ⟨kept, Message.kept_of_readEntry? (by decide) (fun w content' hagain => ?_) hentry, rfl⟩
      simp only [Message.absorb, Record.bytes, hagain]
      rfl
  · obtain ⟨entry, hentry, rfl⟩ := Option.map_eq_some_iff.1 h
    cases entry with
    | inl entry => exact .inl ⟨hm, rfl⟩
    | inr kept =>
      refine .inr
        ⟨kept, Message.kept_of_readEntry? (by decide) (fun w content' hagain => ?_) hentry, rfl⟩
      simp only [Message.absorb, Record.bytes, hagain]
      rfl
  · refine .inr (Message.keeps_of_foreign hr (fun w => ?_) habsorb)
    simp only [Message.absorb]
    rfl

instance : LawfulMessage FieldValues where
  known m := m.fields.records 1 ++ m.statuses.records 2
  Parts m := m.fields.Valid
  records_eq _ := rfl
  parts_setUnknown := id
  parts_empty := FieldMap.valid_empty
  unknown_empty := rfl
  absorb_cases := absorb_cases
  wellFormed_known hr hlen := by
    rcases List.mem_append.1 hr with hr | hr
    · exact FieldMap.wellFormed_records (by decide) hr hlen
    · exact FieldMap.wellFormed_records (by decide) hr hlen
  rebuild {m} hm hlen := by
    obtain ⟨hfields, hstatuses⟩ := List.forall_mem_append.1 hlen
    refine Message.foldlM_absorb_append
      (FieldMap.foldlM_absorb_records (FieldValues.mk · .empty []) ?_ hm hfields)
      (FieldMap.foldlM_absorb_records (FieldValues.mk m.fields · []) ?_ (fun _ _ => trivial)
        hstatuses)
    all_goals
      intro _ content key a hentry
      simp only [Message.absorb, Record.bytes, hentry]
      rfl

end FieldValues

namespace FeaturesResponse

instance : KeepsUnknown FeaturesResponse where
  unknown m := m.unknown
  setUnknown m u := { m with unknown := u }
  unknown_setUnknown _ _ := rfl
  setUnknown_setUnknown _ _ _ := rfl
  setUnknown_unknown _ := rfl

instance : LawfulMessage FeaturesResponse where
  known m := m.fieldValues.map (Message.nested 1)
  Parts m := ∀ f ∈ m.fieldValues, Valid f
  records_eq _ := rfl
  parts_setUnknown := id
  parts_empty := by rintro _ ⟨⟩
  unknown_empty := rfl
  absorb_cases {m m' r} hm hr h := by
    have habsorb := h
    simp only [Message.absorb] at h
    split at h
    · obtain ⟨f, hf, rfl⟩ := Option.map_eq_some_iff.1 h
      refine .inl ⟨List.forall_mem_append.2 ⟨hm, ?_⟩, rfl⟩
      exact List.forall_mem_singleton.2 (Message.valid_of_decode? hf)
    · refine .inr (Message.keeps_of_foreign hr (fun w => ?_) habsorb)
      simp only [Message.absorb]
      rfl
  wellFormed_known hr hlen := Message.wellFormed_nested (by decide) hr hlen
  rebuild {m} hm hlen := by
    refine Message.foldlM_absorb_nested (FeaturesResponse.mk · [])
      (fun _ content f hf => ?_) hm hlen
    simp only [Message.absorb, Record.bytes, hf]
    rfl

end FeaturesResponse

end OnlineFeatures
