import OnlineFeatures.Proofs.Conversion.Valid
import OnlineFeatures.Proofs.Row.Shared

/-!
# Reachable rows

The rows that callers can come to begin without fields at a time of the clock and go through any
steps, also steps that fail. Their values and their timestamps are all valid messages, since what is
handed over as a message is one that was built or read (`Row.Reachable.valid`).
-/

namespace OnlineFeatures

/-! ## Valid rows -/

namespace Row

/-- A row of valid values and a valid timestamp. -/
structure Valid (r : Row) : Prop where
  fields : ∀ p ∈ r.fields.entries, Message.Valid p.2
  timestamp : Message.Valid r.timestamp

theorem Valid.value {r : Row} (h : r.Valid) {field : String} {v : Value}
    (hv : r.fields.find? field = some v) : Message.Valid v :=
  h.fields (field, v) (OrderedMap.find?_eq_some_iff_mem.1 hv)

theorem Valid.storeField {r : Row} (h : r.Valid) (field : String) {v : Value}
    (hv : Message.Valid v) : (r.storeField field v).Valid := by
  refine ⟨fun p hp => ?_, h.timestamp⟩
  rcases OrderedMap.mem_set hp with rfl | hp
  · exact hv
  · exact h.fields p hp

theorem Valid.storeStatus {r : Row} (h : r.Valid) (field : String) (status : Option FieldStatus) :
    (r.storeStatus field status).Valid := by
  cases status <;> exact ⟨h.fields, h.timestamp⟩

theorem Valid.set {r : Row} (h : r.Valid) (field : String) {v : Native} (hv : v.Valid)
    (status : Native) : (r.set field v status).1.Valid := by
  unfold Row.set
  split
  · exact h
  · rename_i stored hstored
    have hfield := h.storeField field (Native.valid_infer hv hstored)
    split
    · exact hfield
    · exact hfield.storeStatus field _

theorem Valid.setTimestamp {r : Row} (h : r.Valid) {v : Native} (hv : v.Valid) :
    (r.setTimestamp v).1.Valid := by
  unfold Row.setTimestamp
  split
  · rename_i t ht
    exact ⟨h.fields, Native.valid_toTimestamp hv ht⟩
  · exact h

end Row

theorem Value.valid_setContent {v : Value} (hv : Message.Valid v) {c : Content} (hc : c.Valid) :
    Message.Valid { v with content := some c } := by
  refine ⟨fun c' hc' => ?_, hv.kept⟩
  obtain rfl := Option.some.inj hc'
  exact hc

/-- Whether what a step hands over is valid. -/
def SharedRow.Step.Valid : SharedRow.Step → Prop
  | .set _ v _ => v.Valid
  | .setTimestamp v => v.Valid
  | _ => True

theorem Row.Valid.step {r : Row} (h : r.Valid) {s : SharedRow.Step} (hs : s.Valid) :
    (r.step s).1.Valid := by
  cases s with
  | set field v status => exact h.set field hs status
  | setTimestamp v => exact h.setTimestamp hs
  | copy source target =>
    simp only [Row.step]
    split
    · rename_i v hv
      exact (h.storeField target (h.value hv)).storeStatus target none
    · exact h
  | keep => exact h
  | editField field text =>
    simp only [Row.step]
    split
    · rename_i v hv
      exact h.storeField field (Value.valid_setContent (h.value hv) trivial)
    · exact h
  | editTimestamp seconds => exact ⟨h.fields, ⟨trivial, h.timestamp.kept⟩⟩
  | remove field => exact h

theorem Row.valid_create {now : Double} {r : Row} (h : Row.create now = .ok r) : r.Valid := by
  rw [Row.create] at h
  split at h
  · obtain ⟨t, ht, rfl⟩ := Except.map_eq_ok_iff.1 h
    exact ⟨by rintro _ ⟨⟩, Timestamp.valid_of_unknown (Timestamp.unknown_ofWholeSeconds ht)⟩
  · cases h

/-! ## Reachable rows -/

/-- The rows of objects that steps lead to from a new row. -/
inductive SharedRow.Reachable : SharedRow → Prop where
  | created {now : Double} {r : Row} : Row.create now = .ok r → Reachable (.ofTimestamp r.timestamp)
  | step {w : SharedRow} {s : SharedRow.Step} : Reachable w → s.Valid → Reachable (w.step s).1

/-- The rows that steps lead to from a new row. -/
def Row.Reachable (r : Row) : Prop := ∃ w : SharedRow, w.Reachable ∧ w.current = r

namespace SharedRow

theorem Reachable.owns {w : SharedRow} (h : w.Reachable) : w.Owns w.row := by
  induction h with
  | created => exact owns_ofTimestamp _
  | step _ _ ih => exact owns_step ih _

theorem Reachable.run {w : SharedRow} (h : w.Reachable) {steps : List Step}
    (hsteps : ∀ s ∈ steps, s.Valid) : (w.run steps).Reachable := by
  induction steps generalizing w with
  | nil => exact h
  | cons s steps ih =>
    obtain ⟨hs, hsteps⟩ := List.forall_mem_cons.1 hsteps
    exact ih (h.step hs) hsteps

theorem current_ofTimestamp (t : Timestamp) : (ofTimestamp t).current = Row.emptyAt t := rfl

end SharedRow

theorem Row.emptyAt_of_create {now : Double} {r : Row} (h : Row.create now = .ok r) :
    Row.emptyAt r.timestamp = r := by
  rw [Row.create] at h
  split at h
  · obtain ⟨t, -, rfl⟩ := Except.map_eq_ok_iff.1 h
    rfl
  · cases h

namespace Row

theorem Reachable.created {now : Double} {r : Row} (h : Row.create now = .ok r) : r.Reachable :=
  ⟨_, .created h, Row.emptyAt_of_create h⟩

theorem Reachable.step {r : Row} (h : r.Reachable) {s : SharedRow.Step} (hs : s.Valid) :
    (r.step s).1.Reachable := by
  obtain ⟨w, hw, rfl⟩ := h
  exact ⟨_, hw.step hs, congrArg Prod.fst (SharedRow.current_step hw.owns s)⟩

/-- The values and the timestamp of a reachable row are valid. -/
theorem Reachable.valid {r : Row} (h : r.Reachable) : r.Valid := by
  obtain ⟨w, hw, rfl⟩ := h
  induction hw with
  | created hcreate =>
    rw [SharedRow.current_ofTimestamp, Row.emptyAt_of_create hcreate]
    exact Row.valid_create hcreate
  | @step w s hw hs ih =>
    have hstep : (w.step s).1.current = (w.current.step s).1 :=
      congrArg Prod.fst (SharedRow.current_step hw.owns s)
    exact hstep ▸ ih.step hs

end Row

end OnlineFeatures
