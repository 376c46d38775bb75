import OnlineFeatures.Row.Shared
import OnlineFeatures.Proofs.OrderedMap

/-!
# Rows of objects and plain rows

A row whose values and timestamp are objects behaves like a plain row as long as every object in it
is its own: each step changes what the row shows just as it would change a plain row
(`SharedRow.current_step`). This rests on an invariant, that the identities in a row are those of
objects and that no two fields have the same one (`SharedRow.Owns`). Storing always makes a new
object, and so each step keeps it (`SharedRow.owns_step`).
-/

namespace OnlineFeatures

namespace SharedRow

/-! ## The invariant -/

/-- Whether the maps and the timestamp of a snapshot are made of objects, one for each field. -/
structure Owns (w : SharedRow) (s : Snapshot) : Prop where
  fields : ∀ p ∈ s.fields.entries, p.2 < w.values.length
  distinct : (s.fields.entries.map (·.2)).Nodup
  timestamp : s.timestamp < w.timestamps.length

theorem owns_ofTimestamp (t : Timestamp) : (ofTimestamp t).Owns (ofTimestamp t).row :=
  ⟨by rintro _ ⟨⟩, .nil, Nat.zero_lt_one⟩

theorem nodup_setEntry {key : String} {id : Nat} {l : List (String × Nat)}
    (hl : (l.map (·.2)).Nodup) (hnew : ∀ p ∈ l, p.2 ≠ id) :
    ((OrderedMap.setEntry key id l).map (·.2)).Nodup := by
  induction l with
  | nil => simp [OrderedMap.setEntry]
  | cons p l ih =>
    obtain ⟨k, b⟩ := p
    obtain ⟨hb, hl⟩ := List.nodup_cons.1 hl
    obtain ⟨hne, hnew⟩ := List.forall_mem_cons.1 hnew
    rw [OrderedMap.setEntry]
    split
    · refine List.nodup_cons.2 ⟨fun hmem => ?_, hl⟩
      obtain ⟨q, hq, heq⟩ := List.mem_map.1 hmem
      exact hnew q hq heq
    · refine List.nodup_cons.2 ⟨fun hmem => ?_, ih hl hnew⟩
      obtain ⟨q, hq, heq⟩ := List.mem_map.1 hmem
      rcases OrderedMap.mem_setEntry hq with rfl | hq
      · exact hne heq.symm
      · exact hb (List.mem_map.2 ⟨q, hq, heq⟩)

theorem owns_storeField {w : SharedRow} (h : w.Owns w.row) (field : String) (v : Value) :
    (w.storeField field v).Owns (w.storeField field v).row where
  fields p hp := by
    simp only [storeField, List.length_append, List.length_singleton]
    rcases OrderedMap.mem_set hp with rfl | hp
    · exact Nat.lt_succ_self _
    · exact Nat.lt_succ_of_lt (h.fields p hp)
  distinct := nodup_setEntry h.distinct fun p hp => Nat.ne_of_lt (h.fields p hp)
  timestamp := h.timestamp

theorem owns_storeStatus {w : SharedRow} (h : w.Owns w.row) (field : String)
    (status : Option FieldStatus) :
    (w.storeStatus field status).Owns (w.storeStatus field status).row :=
  ⟨h.fields, h.distinct, h.timestamp⟩

theorem owns_set {w : SharedRow} (h : w.Owns w.row) (field : String) (v status : Native) :
    (w.set field v status).1.Owns (w.set field v status).1.row := by
  unfold set
  split
  · exact h
  · split
    · exact owns_storeField h field _
    · exact owns_storeStatus (owns_storeField h field _) field _

theorem owns_setTimestamp {w : SharedRow} (h : w.Owns w.row) (v : Native) :
    (w.setTimestamp v).1.Owns (w.setTimestamp v).1.row := by
  unfold setTimestamp
  split
  · exact ⟨h.fields, h.distinct, by simp⟩
  · exact h

theorem owns_copy {w : SharedRow} (h : w.Owns w.row) (source target : String) :
    (w.copy source target).1.Owns (w.copy source target).1.row := by
  unfold copy
  split
  · exact owns_storeStatus (owns_storeField h target _) target none
  · exact h

theorem owns_editField {w : SharedRow} (h : w.Owns w.row) (field text : String) :
    (w.editField field text).1.Owns (w.editField field text).1.row := by
  unfold editField
  split
  · exact ⟨by simpa using h.fields, h.distinct, h.timestamp⟩
  · exact h

/-- Each step keeps the row's objects its own. -/
theorem owns_step {w : SharedRow} (h : w.Owns w.row) (s : Step) :
    (w.step s).1.Owns (w.step s).1.row := by
  cases s with
  | set field v status => exact owns_set h field v status
  | setTimestamp v => exact owns_setTimestamp h v
  | copy source target => exact owns_copy h source target
  | keep => exact ⟨h.fields, h.distinct, h.timestamp⟩
  | editField field text => exact owns_editField h field text
  | editTimestamp seconds =>
    exact ⟨h.fields, h.distinct, by simpa [step, editTimestamp] using h.timestamp⟩
  | remove field => exact h

theorem owns_run {w : SharedRow} (h : w.Owns w.row) (steps : List Step) :
    (w.run steps).Owns (w.run steps).row := by
  induction steps generalizing w with
  | nil => exact h
  | cons s steps ih => exact ih (owns_step h s)

/-! ## What the row shows -/

theorem valueAt_storeField_of_lt {w : SharedRow} (field : String) (v : Value) {id : Nat}
    (h : id < w.values.length) : (w.storeField field v).valueAt id = w.valueAt id := by
  simp [valueAt, storeField, List.getElem?_append_left h]

theorem valueAt_storeField_length (w : SharedRow) (field : String) (v : Value) :
    (w.storeField field v).valueAt w.values.length = v := by
  simp [valueAt, storeField]

@[simp]
theorem find?_current (w : SharedRow) (field : String) :
    w.current.fields.find? field = (w.row.fields.find? field).map w.valueAt :=
  OrderedMap.find?_mapValues _ _ _

theorem current_storeField {w : SharedRow} (h : w.Owns w.row) (field : String) (v : Value) :
    (w.storeField field v).current = w.current.storeField field v := by
  have hfields : (w.row.fields.set field w.values.length).mapValues (w.storeField field v).valueAt =
      (w.row.fields.mapValues w.valueAt).set field v := by
    rw [OrderedMap.mapValues_set, valueAt_storeField_length,
      OrderedMap.mapValues_congr fun p hp => valueAt_storeField_of_lt field v (h.fields p hp)]
  exact congrArg
    (fun fields => (⟨fields, w.row.statuses, w.timestampAt w.row.timestamp⟩ : Row)) hfields

theorem current_storeStatus (w : SharedRow) (field : String) (status : Option FieldStatus) :
    (w.storeStatus field status).current = w.current.storeStatus field status := by
  cases status <;> rfl

theorem current_set {w : SharedRow} (h : w.Owns w.row) (field : String) (v status : Native) :
    (w.set field v status).map current id = w.current.set field v status := by
  simp only [set, Row.set]
  cases v.infer with
  | error why => rfl
  | ok stored =>
    cases Row.givenStatus status with
    | error why => exact Prod.ext (current_storeField h field stored) rfl
    | ok given =>
      refine Prod.ext ?_ rfl
      exact (current_storeStatus _ field given).trans
        (congrArg (·.storeStatus field given) (current_storeField h field stored))

theorem current_setTimestamp (w : SharedRow) (v : Native) :
    (w.setTimestamp v).map current id = w.current.setTimestamp v := by
  simp only [setTimestamp, Row.setTimestamp]
  cases v.toTimestamp with
  | error why => rfl
  | ok t =>
    have hlast : ((w.timestamps ++ [t])[w.timestamps.length]?).getD Message.empty = t := by simp
    exact Prod.ext (congrArg (Row.mk _ _) hlast) rfl

end SharedRow

/-! ## Steps of a plain row -/

/-- What a step does to a row that shares nothing. -/
def Row.step (r : Row) : SharedRow.Step → Row × SharedRow.StepResult
  | .set field v status => (r.set field v status).map id .ofRow
  | .setTimestamp v => (r.setTimestamp v).map id .ofMoment
  | .copy source target =>
    match r.fields.find? source with
    | some v => (r.store target v none, .found true)
    | none => (r, .found false)
  | .keep => (r, .done)
  | .editField field text =>
    match r.fields.find? field with
    | some v => (r.storeField field { v with content := some (.text text) }, .found true)
    | none => (r, .found false)
  | .editTimestamp seconds => ({ r with timestamp := { r.timestamp with seconds } }, .done)
  | .remove field => (r, .removed (r.fields.contains field) (r.statuses.contains field))

namespace SharedRow

theorem current_copy {w : SharedRow} (h : w.Owns w.row) (source target : String) :
    (w.step (.copy source target)).map current id = w.current.step (.copy source target) := by
  simp only [step, copy, Row.step, find?_current]
  cases w.row.fields.find? source with
  | none => rfl
  | some id =>
    refine Prod.ext ?_ rfl
    exact (current_storeStatus _ target none).trans
      (congrArg (·.storeStatus target none) (current_storeField h target _))

theorem valueAt_modify {w : SharedRow} {edit : Value → Value} {i : Nat} (h : i < w.values.length)
    (j : Nat) : { w with values := w.values.modify i edit }.valueAt j =
      if j = i then edit (w.valueAt j) else w.valueAt j := by
  simp only [valueAt, List.getElem?_modify]
  by_cases hj : j = i
  · subst hj
    simp [List.getElem?_eq_getElem h]
  · simp [hj, Ne.symm hj]

/-- An edit of a field's value shows at that field and nowhere else. -/
theorem mapValues_modify {w : SharedRow} (h : w.Owns w.row) {field : String} {i : Nat}
    (hi : w.row.fields.find? field = some i) (edit : Value → Value) :
    w.row.fields.mapValues { w with values := w.values.modify i edit }.valueAt =
      (w.row.fields.mapValues w.valueAt).set field (edit (w.valueAt i)) := by
  have hlt : i < w.values.length := h.fields (field, i) (OrderedMap.find?_eq_some_iff_mem.1 hi)
  -- no other field has the object that is edited
  rw [OrderedMap.mapValues_update (f := w.valueAt) h.distinct hi, valueAt_modify hlt, if_pos rfl]
  intro j hj
  rw [valueAt_modify hlt, if_neg hj]

theorem current_editField {w : SharedRow} (h : w.Owns w.row) (field text : String) :
    (w.step (.editField field text)).map current id = w.current.step (.editField field text) := by
  simp only [step, editField, Row.step, find?_current]
  cases hi : w.row.fields.find? field with
  | none => rfl
  | some i =>
    refine Prod.ext ?_ rfl
    exact congrArg (Row.mk · w.row.statuses (w.timestampAt w.row.timestamp))
      (mapValues_modify h hi fun v => { v with content := some (.text text) })

theorem current_editTimestamp {w : SharedRow} (h : w.Owns w.row) (seconds : Int64) :
    (w.editTimestamp seconds).current =
      { w.current with timestamp := { w.current.timestamp with seconds } } := by
  refine congrArg (Row.mk (w.row.fields.mapValues w.valueAt) w.row.statuses) ?_
  show ((w.timestamps.modify _ _)[w.row.timestamp]?).getD Message.empty = _
  simp [List.getElem?_eq_getElem h.timestamp, current, view, timestampAt]

theorem contains_current (w : SharedRow) (field : String) :
    w.current.fields.contains field = w.row.fields.contains field := by
  simp [OrderedMap.contains]

/-- Each step changes what the row shows as it would change a plain row, and ends alike. -/
theorem current_step {w : SharedRow} (h : w.Owns w.row) (s : Step) :
    (w.step s).map current id = w.current.step s := by
  cases s with
  | set field v status =>
    simp only [step, Row.step, ← current_set h]
    rfl
  | setTimestamp v =>
    simp only [step, Row.step, ← current_setTimestamp]
    rfl
  | copy source target => exact current_copy h source target
  | keep => rfl
  | editField field text => exact current_editField h field text
  | editTimestamp seconds => exact Prod.ext (current_editTimestamp h seconds) rfl
  | remove field =>
    simp only [step, removable, Row.step, contains_current]
    rfl

/-- A run of steps changes what the row shows as it would change a plain row. -/
theorem current_run {w : SharedRow} (h : w.Owns w.row) (steps : List Step) :
    (w.run steps).current = steps.foldl (fun r s => (r.step s).1) w.current := by
  induction steps generalizing w with
  | nil => rfl
  | cons s steps ih =>
    have hstep : (w.step s).1.current = (w.current.step s).1 :=
      congrArg Prod.fst (current_step h s)
    rw [List.foldl_cons, ← hstep]
    exact ih (owns_step h s)

end SharedRow

end OnlineFeatures
