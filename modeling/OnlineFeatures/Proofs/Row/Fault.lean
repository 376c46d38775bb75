import OnlineFeatures.Proofs.Row.Reachable

/-!
# What a failed call leaves behind

Setting the point in time does all or nothing. Setting a field does so only while the status is in
order: the value is stored before the status is looked up, so that a refused status leaves the new
value under the old status (`Row.set_cases`). `SharedRow.failed_call` says exactly when nothing has
changed.
-/

namespace OnlineFeatures

namespace Row

/-- The three ways in which setting a field ends. -/
theorem set_cases (r : Row) (field : String) (v status : Native) :
    (∃ why, v.infer = .error why ∧ r.set field v status = (r, .error (.value why))) ∨
    (∃ stored why, v.infer = .ok stored ∧ givenStatus status = .error why ∧
      r.set field v status = (r.storeField field stored, .error (.status why))) ∨
    (∃ stored given, v.infer = .ok stored ∧ givenStatus status = .ok given ∧
      r.set field v status = (r.store field stored given, .ok ())) := by
  cases hv : v.infer with
  | error why => exact .inl ⟨why, rfl, by rw [set, hv]⟩
  | ok stored =>
    cases hstatus : givenStatus status with
    | error why => exact .inr (.inl ⟨stored, why, rfl, rfl, by rw [set, hv]; simp only [hstatus]⟩)
    | ok given => exact .inr (.inr ⟨stored, given, rfl, rfl, by rw [set, hv]; simp only [hstatus]⟩)

theorem storeField_eq_self_iff {r : Row} {field : String} {v : Value} :
    r.storeField field v = r ↔ r.fields.find? field = some v := by
  rw [← OrderedMap.set_eq_self_iff]
  constructor
  · intro h
    exact congrArg fields h
  · intro h
    exact congrArg (Row.mk · r.statuses r.timestamp) h

/-- After a failure the statuses and the point in time are as before, and so are the fields exactly
when the value was at fault or the field held that value already. -/
theorem set_error {r : Row} {field : String} {v status : Native} {why : RowFault}
    (h : (r.set field v status).2 = .error why) :
    (r.set field v status).1.statuses = r.statuses ∧
    (r.set field v status).1.timestamp = r.timestamp ∧
    (∀ fault, why = .status fault →
      ∃ stored, v.infer = .ok stored ∧ (r.set field v status).1 = r.storeField field stored) ∧
    ((r.set field v status).1 = r ↔
      (∃ fault, why = .value fault) ∨
        ∃ stored, v.infer = .ok stored ∧ r.fields.find? field = some stored) := by
  rcases set_cases r field v status with ⟨fault, hv, heq⟩ | ⟨stored, fault, hv, -, heq⟩ |
    ⟨stored, given, -, -, heq⟩
  · rw [heq] at h
    cases h
    rw [heq]
    refine ⟨rfl, rfl, by rintro _ ⟨⟩, fun _ => .inl ⟨fault, rfl⟩, fun _ => rfl⟩
  · rw [heq] at h
    cases h
    rw [heq]
    refine ⟨rfl, rfl, fun _ _ => ⟨stored, hv, rfl⟩, ?_⟩
    rw [storeField_eq_self_iff]
    constructor
    · intro hheld
      exact .inr ⟨stored, hv, hheld⟩
    · rintro (⟨_, ⟨⟩⟩ | ⟨stored', hv', hheld⟩)
      cases hv.symm.trans hv'
      exact hheld
  · rw [heq] at h
    cases h

end Row

namespace SharedRow

theorem setTimestamp_error {w : SharedRow} {v : Native} {why : MomentFault}
    (h : (w.setTimestamp v).2 = .error why) : (w.setTimestamp v).1 = w := by
  unfold setTimestamp at h ⊢
  split
  · rename_i t ht
    rw [ht] at h
    cases h
  · rfl

/-- What a call on a reachable row leaves behind when it fails. Setting the point in time changes
nothing then. Setting a field changes neither statuses nor the point in time, and it leaves the
fields alone exactly when the value is at fault or is the one that the field holds; with a refused
status the value has been stored. -/
theorem failed_call {w : SharedRow} (hw : w.Reachable) :
    (∀ field v status why, (w.set field v status).2 = .error why →
      let after := (w.set field v status).1.current
      after.statuses = w.current.statuses ∧ after.timestamp = w.current.timestamp ∧
      (∀ fault, why = .status fault →
        ∃ stored, v.infer = .ok stored ∧ after = w.current.storeField field stored) ∧
      (after = w.current ↔ (∃ fault, why = .value fault) ∨
        ∃ stored, v.infer = .ok stored ∧ w.current.fields.find? field = some stored)) ∧
    ∀ v why, (w.setTimestamp v).2 = .error why → (w.setTimestamp v).1.current = w.current := by
  constructor
  · intro field v status why h after
    have hset := current_set hw.owns field v status
    have hafter : (w.current.set field v status).1 = after := (congrArg Prod.fst hset).symm
    have herror : (w.current.set field v status).2 = .error why := by
      rw [← hset]
      exact h
    rw [← hafter]
    exact Row.set_error herror
  · intro v why h
    rw [setTimestamp_error h]

/-- A row on which setting a field fails for its status: the new value stands under the old
status. -/
theorem failed_call_status :
    let w := ((ofTimestamp (.ofSeconds 1)).step (.set "a" (.int 1) (.status .present))).1
    let after := (w.set "a" (.int 2) (.text "x")).1.current
    (w.set "a" (.int 2) (.text "x")).2 = .error (.status (Native.text "x").statusFault) ∧
    after.statuses = w.current.statuses ∧ after.fields ≠ w.current.fields ∧
    (w.setTimestamp (.bool true)).1.current = w.current := by
  intro w after
  have hcreate : Row.create ⟨0x3ff0000000000000⟩ = .ok (Row.emptyAt (.ofSeconds 1)) := by rfl
  have hw : w.Reachable :=
    (Reachable.created hcreate).step (s := .set "a" (.int 1) (.status .present)) trivial
  have hfails : (w.set "a" (.int 2) (.text "x")).2 =
      .error (.status (Native.text "x").statusFault) := by rfl
  obtain ⟨hset, htimestamp⟩ := failed_call hw
  obtain ⟨hstatuses, -, -, -⟩ := hset "a" (.int 2) (.text "x") _ hfails
  refine ⟨hfails, hstatuses, by decide +kernel, htimestamp (.bool true) _ rfl⟩

/-- Failed calls do not leave every row as it was. -/
theorem set_not_atomic : ¬ ∀ w : SharedRow, w.Reachable → ∀ field v status why,
    (w.set field v status).2 = .error why → (w.set field v status).1.current = w.current := by
  intro h
  have hcreate : Row.create ⟨0x3ff0000000000000⟩ = .ok (Row.emptyAt (.ofSeconds 1)) := by rfl
  have hw := (Reachable.created hcreate).step (s := .set "a" (.int 1) (.status .present)) trivial
  have hsame := h _ hw "a" (.int 2) (.text "x") _ rfl
  exact absurd hsame (by decide +kernel)

end SharedRow

end OnlineFeatures
