import OnlineFeatures.Message.Info
import OnlineFeatures.Message.Reference
import OnlineFeatures.Proofs.Wire.Elements

/-!
# Messages of single fields

The messages whose fields are numbers and texts without presence: timestamps, feature references and
the two messages of the information call. Such a field sends nothing while it holds its default,
which is what the message of no records holds there, so its records give it back either way
(`Record.foldlM_unlessZero`, `Record.foldlM_unlessBlank`).
-/

namespace OnlineFeatures

/-! ## One field -/

namespace Record

variable {μ : Type} [Message μ] {number : Nat}

/-- The records of a number fill its slot. -/
theorem foldlM_unlessZero {α : Type} [VarintCoded α] [LawfulVarintCoded α] (slot : α → μ)
    (hslot : ∀ a v, Message.absorb (slot a) (.varint number v) =
      some (slot (VarintCoded.ofVarint v)))
    (a : α) :
    (unlessZero number a).foldlM Message.absorb (slot (VarintCoded.ofVarint 0)) =
      some (slot a) := by
  rw [unlessZero]
  split
  · rename_i hzero
    rw [← hzero, LawfulVarintCoded.ofVarint_toVarint]
    rfl
  · simp [hslot, LawfulVarintCoded.ofVarint_toVarint]

/-- The records of a text fill its slot. -/
theorem foldlM_unlessBlank (slot : String → μ)
    (hslot : ∀ s content,
      Message.absorb (slot s) (.bytes number content) = (Utf8.decode? content).map slot)
    (s : String) : (unlessBlank number s).foldlM Message.absorb (slot "") = some (slot s) := by
  rw [unlessBlank]
  split
  · rename_i hblank
    rw [hblank]
    rfl
  · simp [hslot, Utf8.decode?_encode]

theorem wellFormed_unlessZero {α : Type} [VarintCoded α] (hn : Tag.Fits number) {a : α} {r : Record}
    (h : r ∈ unlessZero number a) : r.WellFormed := by
  rw [unlessZero] at h
  split at h
  · simp at h
  · obtain rfl := List.mem_singleton.1 h
    exact wellFormed_varint hn _

theorem wellFormed_unlessBlank (hn : Tag.Fits number) {s : String} {r : Record}
    (h : r ∈ unlessBlank number s) (hlen : r.spelling.length < Message.sizeLimit) :
    r.WellFormed := by
  rw [unlessBlank] at h
  split at h
  · simp at h
  · obtain rfl := List.mem_singleton.1 h
    exact Message.wellFormed_bytes hn hlen

end Record

/-! ## Timestamps -/

instance : KeepsUnknown Timestamp where
  unknown t := t.unknown
  setUnknown t u := { t with unknown := u }
  unknown_setUnknown _ _ := rfl
  setUnknown_setUnknown _ _ _ := rfl
  setUnknown_unknown _ := rfl

instance : LawfulMessage Timestamp where
  known t := Record.unlessZero 1 t.seconds ++ Record.unlessZero 2 t.nanos
  Parts _ := True
  records_eq _ := rfl
  parts_setUnknown := id
  parts_empty := trivial
  unknown_empty := rfl
  absorb_cases {t t' r} _ hr h := by
    have habsorb := h
    simp only [Message.absorb] at h
    split at h
    · cases h
      exact .inl ⟨trivial, rfl⟩
    · cases h
      exact .inl ⟨trivial, rfl⟩
    · refine .inr (Message.keeps_of_foreign hr (fun w => ?_) habsorb)
      simp only [Message.absorb]
      rfl
  wellFormed_known hr hlen := by
    rcases List.mem_append.1 hr with hr | hr
    · exact Record.wellFormed_unlessZero (by decide) hr
    · exact Record.wellFormed_unlessZero (by decide) hr
  rebuild {t} _ _ :=
    Message.foldlM_absorb_append
      (Record.foldlM_unlessZero (Timestamp.mk · 0 []) (fun _ _ => rfl) t.seconds)
      (Record.foldlM_unlessZero (Timestamp.mk t.seconds · []) (fun _ _ => rfl) t.nanos)

/-! ## The information call -/

instance : KeepsUnknown InfoRequest where
  unknown m := m.unknown
  setUnknown _ u := ⟨u⟩
  unknown_setUnknown _ _ := rfl
  setUnknown_setUnknown _ _ _ := rfl
  setUnknown_unknown _ := rfl

instance : LawfulMessage InfoRequest where
  known _ := []
  Parts _ := True
  records_eq _ := rfl
  parts_setUnknown := id
  parts_empty := trivial
  unknown_empty := rfl
  absorb_cases _ hr h := .inr (Message.keeps_of_foreign hr (fun _ => rfl) h)
  wellFormed_known hr := by cases hr
  rebuild _ _ := rfl

instance : KeepsUnknown InfoResponse where
  unknown m := m.unknown
  setUnknown m u := { m with unknown := u }
  unknown_setUnknown _ _ := rfl
  setUnknown_setUnknown _ _ _ := rfl
  setUnknown_unknown _ := rfl

instance : LawfulMessage InfoResponse where
  known m := Record.unlessBlank 1 m.version ++ Record.unlessZero 2 m.kind ++
    Record.unlessBlank 10 m.jobStagingLocation
  Parts _ := True
  records_eq _ := rfl
  parts_setUnknown := id
  parts_empty := trivial
  unknown_empty := rfl
  absorb_cases {m m' r} _ hr h := by
    have habsorb := h
    simp only [Message.absorb] at h
    split at h
    · obtain ⟨version, -, rfl⟩ := Option.map_eq_some_iff.1 h
      exact .inl ⟨trivial, rfl⟩
    · cases h
      exact .inl ⟨trivial, rfl⟩
    · obtain ⟨location, -, rfl⟩ := Option.map_eq_some_iff.1 h
      exact .inl ⟨trivial, rfl⟩
    · refine .inr (Message.keeps_of_foreign hr (fun w => ?_) habsorb)
      simp only [Message.absorb]
      rfl
  wellFormed_known {m r} hr hlen := by
    simp only [List.mem_append] at hr
    rcases hr with (hr | hr) | hr
    · exact Record.wellFormed_unlessBlank (by decide) hr hlen
    · exact Record.wellFormed_unlessZero (by decide) hr
    · exact Record.wellFormed_unlessBlank (by decide) hr hlen
  rebuild {m} _ _ :=
    Message.foldlM_absorb_append
      (Message.foldlM_absorb_append
        (Record.foldlM_unlessBlank (InfoResponse.mk · 0 "" []) (fun _ _ => rfl) m.version)
        (Record.foldlM_unlessZero (InfoResponse.mk m.version · "" []) (fun _ _ => rfl) m.kind))
      (Record.foldlM_unlessBlank (InfoResponse.mk m.version m.kind · []) (fun _ _ => rfl)
        m.jobStagingLocation)

/-! ## Feature references -/

instance : KeepsUnknown ReferenceMessage where
  unknown m := m.unknown
  setUnknown m u := { m with unknown := u }
  unknown_setUnknown _ _ := rfl
  setUnknown_setUnknown _ _ _ := rfl
  setUnknown_unknown _ := rfl

instance : LawfulMessage ReferenceMessage where
  known m := Record.unlessBlank 1 m.table ++ Record.unlessBlank 2 m.name
  Parts _ := True
  records_eq _ := rfl
  parts_setUnknown := id
  parts_empty := trivial
  unknown_empty := rfl
  absorb_cases {m m' r} _ hr h := by
    have habsorb := h
    simp only [Message.absorb] at h
    split at h
    · obtain ⟨table, -, rfl⟩ := Option.map_eq_some_iff.1 h
      exact .inl ⟨trivial, rfl⟩
    · obtain ⟨name, -, rfl⟩ := Option.map_eq_some_iff.1 h
      exact .inl ⟨trivial, rfl⟩
    · refine .inr (Message.keeps_of_foreign hr (fun w => ?_) habsorb)
      simp only [Message.absorb]
      rfl
  wellFormed_known hr hlen := by
    rcases List.mem_append.1 hr with hr | hr
    · exact Record.wellFormed_unlessBlank (by decide) hr hlen
    · exact Record.wellFormed_unlessBlank (by decide) hr hlen
  rebuild {m} _ _ :=
    Message.foldlM_absorb_append
      (Record.foldlM_unlessBlank (ReferenceMessage.mk · "" []) (fun _ _ => rfl) m.table)
      (Record.foldlM_unlessBlank (ReferenceMessage.mk m.table · []) (fun _ _ => rfl) m.name)

end OnlineFeatures
