import OnlineFeatures.Proofs.Conversion.Rewrapped
import OnlineFeatures.Proofs.Row.History

/-!
# Rows built again

The native values of a row and its statuses are enough to build the row again, unless a field holds
a list without items: the new row has the same native values and statuses, and building it once more
changes nothing (`Row.rebuilt_settles`). The first round may move a value to another member, from
which the second one finds it unmoved, since what is converted depends on the native value alone
(`Row.fields_rebuilt`).
-/

namespace OnlineFeatures

namespace Row

/-! ## Setting many fields -/

/-- The argument that a status is given by, none where there is no status. -/
def statusArgument : Option FieldStatus → Native
  | none => .none
  | some s => .status s

theorem givenStatus_statusArgument (status : Option FieldStatus) :
    givenStatus (statusArgument status) = .ok status := by
  cases status with
  | none => rfl
  | some s => cases s <;> rfl

/-- Sets fields one after another, each with the status of its name, up to the first that is
refused. -/
def setAll (status? : String → Option FieldStatus) (r : Row) :
    List (String × Native) → Except RowFault Row
  | [] => .ok r
  | (name, v) :: rest =>
    match r.set name v (statusArgument (status? name)) with
    | (r, .ok ()) => r.setAll status? rest
    | (_, .error why) => .error why

/-- The row built from the native values and the statuses of a row, beginning with another row. -/
def rebuilt (start r : Row) : Except RowFault Row := start.setAll r.status? r.toDict

/-- The value that a native value is converted to, where it is converted. -/
def converted (v : Native) : Value := v.infer.toOption.getD .unset

theorem converted_of_infer {v : Native} {w : Value} (h : v.infer = .ok w) : converted v = w := by
  rw [converted, h]
  rfl

/-- Stores fields one after another, each with the status of its name. -/
def storeAll (status? : String → Option FieldStatus) (r : Row) (entries : List (String × Native)) :
    Row :=
  entries.foldl (fun r p => r.store p.1 (converted p.2) (status? p.1)) r

section Storing

variable {status? : String → Option FieldStatus} {entries : List (String × Native)}

/-- Where all values are converted, setting them stores what they are converted to. -/
theorem setAll_eq (h : ∀ p ∈ entries, ∃ w, p.2.infer = .ok w) (r : Row) :
    r.setAll status? entries = .ok (r.storeAll status? entries) := by
  induction entries generalizing r with
  | nil => rfl
  | cons p entries ih =>
    obtain ⟨name, v⟩ := p
    obtain ⟨⟨w, hw⟩, h⟩ := List.forall_mem_cons.1 h
    replace hw : v.infer = .ok w := hw
    have hset :
        r.set name v (statusArgument (status? name)) = (r.store name w (status? name), .ok ()) := by
      simp only [set, hw, givenStatus_statusArgument]
    rw [setAll, hset, storeAll, List.foldl_cons, converted_of_infer hw]
    exact ih h _

/-- Setting stops at the first value that is not converted. -/
theorem exists_infer_of_setAll {r r' : Row} (h : r.setAll status? entries = .ok r') :
    ∀ p ∈ entries, ∃ w, p.2.infer = .ok w := by
  induction entries generalizing r with
  | nil => exact fun _ hp => absurd hp List.not_mem_nil
  | cons p entries ih =>
    obtain ⟨name, v⟩ := p
    rw [setAll] at h
    cases hw : v.infer with
    | error why =>
      simp only [set, hw] at h
      cases h
    | ok w =>
      simp only [set, hw, givenStatus_statusArgument] at h
      exact List.forall_mem_cons.2 ⟨⟨w, hw⟩, ih h⟩

theorem fields_storeAll (r : Row) :
    (r.storeAll status? entries).fields =
      entries.foldl (fun m p => m.set p.1 (converted p.2)) r.fields := by
  rw [storeAll]
  induction entries generalizing r with
  | nil => rfl
  | cons p entries ih =>
    rw [List.foldl_cons, List.foldl_cons, ih, store, fields_storeStatus]
    rfl

theorem find?_statuses_storeAll (r : Row) (name : String) :
    (r.storeAll status? entries).statuses.find? name =
      if name ∈ entries.map (·.1) then status? name else r.statuses.find? name := by
  rw [storeAll]
  induction entries generalizing r with
  | nil => simp
  | cons p entries ih =>
    rw [List.foldl_cons, ih, find?_statuses_store, List.map_cons]
    by_cases hname : name = p.1
    · simp [hname]
    · have hmem : name ∈ p.1 :: entries.map (·.1) ↔ name ∈ entries.map (·.1) :=
        List.mem_cons.trans (or_iff_right hname)
      rw [if_neg hname, if_congr hmem rfl rfl]

end Storing

/-! ## Building a row again -/

variable {start r : Row} {now : Double}

theorem converted_unwrap {v : Value} (h : ¬ v.HoldsEmptyList) :
    v.unwrap.infer = .ok (converted v.unwrap) ∧ (converted v.unwrap).unwrap = v.unwrap := by
  obtain ⟨w, hw, hunwrap⟩ := Value.infer_unwrap h
  rw [converted_of_infer hw]
  exact ⟨hw, hunwrap⟩

section Rebuilt

variable (hstart : create now = .ok start) (hlists : ∀ p ∈ r.fields.entries, ¬ p.2.HoldsEmptyList)

include hlists

theorem rebuilt_eq (start : Row) : rebuilt start r = .ok (start.storeAll r.status? r.toDict) := by
  refine setAll_eq (fun p hp => ?_) start
  obtain ⟨q, hq, rfl⟩ := List.mem_map.1 hp
  exact ⟨_, (converted_unwrap (hlists q hq)).1⟩

omit hlists

include hstart

/-- The fields of the row built again are those of the row, each converted from its native value. -/
theorem fields_rebuilt :
    (start.storeAll r.status? r.toDict).fields = r.fields.mapValues fun v =>
      converted v.unwrap := by
  have hempty : start.fields = .empty := by
    rw [← emptyAt_of_create hstart]
    rfl
  have hnodup : (r.toDict.map (·.1)).Nodup := by
    rw [keys_toDict]
    exact r.fields.nodup
  refine OrderedMap.ext ?_
  have hentries := OrderedMap.entries_foldl_set (m := .empty) (fun p => converted p.2) hnodup
    fun p _ => List.not_mem_nil
  rw [fields_storeAll, hempty, hentries]
  simp [OrderedMap.empty, OrderedMap.mapValues, toDict]

theorem find?_statuses_rebuilt (name : String) :
    (start.storeAll r.status? r.toDict).statuses.find? name =
      (r.fields.find? name).bind fun _ => r.statuses.find? name := by
  have hempty : start.statuses.find? name = none := by
    rw [← emptyAt_of_create hstart]
    rfl
  rw [find?_statuses_storeAll, hempty, keys_toDict, status?]
  by_cases hname : name ∈ r.fields.keys
  · obtain ⟨v, hv⟩ := Option.isSome_iff_exists.1 (OrderedMap.isSome_find?.2 hname)
    rw [if_pos hname, hv, Option.bind_some]
  · rw [if_neg hname, OrderedMap.find?_eq_none_iff.2 hname, Option.bind_none]

include hlists

theorem toDict_rebuilt : (start.storeAll r.status? r.toDict).toDict = r.toDict := by
  rw [toDict, fields_rebuilt hstart, OrderedMap.mapValues, List.map_map, toDict]
  refine List.map_congr_left fun p hp => ?_
  show (p.1, (converted p.2.unwrap).unwrap) = (p.1, p.2.unwrap)
  rw [(converted_unwrap (hlists p hp)).2]

/-- The fields of the row built again hold no lists without items either. -/
theorem not_holdsEmptyList_rebuilt :
    ∀ p ∈ (start.storeAll r.status? r.toDict).fields.entries, ¬ p.2.HoldsEmptyList := by
  rw [fields_rebuilt hstart]
  intro p hp hempty
  obtain ⟨⟨name, v⟩, hq, rfl⟩ := List.mem_map.1 hp
  obtain ⟨hinfer, hunwrap⟩ := converted_unwrap (hlists _ hq)
  have hrefused := Value.infer_unwrap_of_emptyList hempty
  rw [hunwrap, hinfer] at hrefused
  cases hrefused

end Rebuilt

/-- The native value of any wire value but a list without items is converted again, to a value of
the same native value. So a row without such lists is built again from its native values and
statuses: the new row has the same native values, and the same statuses if only fields have them.
Building that row again gives an equal row, with the very same fields. -/
theorem rebuilt_settles :
    (∀ v : Value, ¬ v.HoldsEmptyList → ∃ w, v.unwrap.infer = .ok w ∧ w.unwrap = v.unwrap) ∧
    ∀ (r : Row) (now now' : Double) (start start' : Row), create now = .ok start →
      create now' = .ok start' →
      (∀ p ∈ r.fields.entries, ¬ p.2.HoldsEmptyList) →
      ∃ once twice, rebuilt start r = .ok once ∧ rebuilt start' once = .ok twice ∧
        once.toDict = r.toDict ∧ (r.Tidy → ∀ name, once.status? name = r.status? name) ∧
        twice.agree once = true ∧ twice.fields = once.fields := by
  refine ⟨fun v hv => Value.infer_unwrap hv,
    fun r now now' start start' hstart hstart' hlists => ?_⟩
  have honce := toDict_rebuilt hstart hlists
  have hstatuses := find?_statuses_rebuilt (r := r) hstart
  have hlistsOnce := not_holdsEmptyList_rebuilt hstart hlists
  -- what has been converted once is its own conversion
  have hfieldsOnce := fields_rebuilt (r := r) hstart
  set once := start.storeAll r.status? r.toDict
  have hfields : (start'.storeAll once.status? once.toDict).fields = once.fields := by
    rw [fields_rebuilt hstart', hfieldsOnce]
    refine OrderedMap.ext ?_
    simp only [OrderedMap.mapValues, List.map_map]
    refine List.map_congr_left fun p hp => ?_
    show (p.1, converted (converted p.2.unwrap).unwrap) = (p.1, converted p.2.unwrap)
    rw [(converted_unwrap (hlists p hp)).2]
  refine ⟨once, _, rebuilt_eq hlists start, rebuilt_eq hlistsOnce start', honce, ?_, ?_, hfields⟩
  · intro htidy name
    rw [status?, status?, hstatuses]
    cases hstatus : r.statuses.find? name with
    | none => cases r.fields.find? name <;> rfl
    | some s =>
      obtain ⟨v, hv⟩ := htidy name s hstatus
      rw [hv, Option.bind_some]
  · refine agree_iff.2 ⟨fun name => by rw [hfields], fun name => ?_⟩
    rw [find?_statuses_rebuilt hstart', hstatuses, hfieldsOnce, OrderedMap.find?_mapValues]
    cases r.fields.find? name <;> rfl

/-- A wide integer that is small, a signaling NaN of 32 bits and an unset value move to other
members once, and then no more. -/
theorem rebuilt_settles_moved :
    let r : Row :=
      ⟨⟨[("a", .ofContent (.int64 5)), ("b", .ofContent (.float ⟨0x7f800001⟩)), ("c", .unset)],
        by decide⟩, ⟨[("c", .notFound), ("a", .present)], by decide⟩, .ofSeconds 7⟩
    (rebuilt (emptyAt (.ofSeconds 0)) r).map (·.fields.entries) = .ok [("a", .ofContent (.int32 5)),
      ("b", .ofContent (.double ⟨0x7ff8000020000000⟩)), ("c", .ofContent (.null 0))] ∧
    ∃ once twice, rebuilt (emptyAt (.ofSeconds 0)) r = .ok once ∧
      rebuilt (emptyAt (.ofSeconds 1)) once = .ok twice ∧ once.toDict = r.toDict ∧
      (∀ name, once.status? name = r.status? name) ∧ twice.agree once = true ∧
        twice.fields = once.fields := by
  intro r
  have hlists : ∀ p ∈ r.fields.entries, ¬ p.2.HoldsEmptyList := by
    simp [r, Value.HoldsEmptyList, Value.ofContent, Value.unset, Content.IsEmptyList]
  have htidy : r.Tidy := by
    intro name status hstatus
    have hmem := OrderedMap.find?_eq_some_iff_mem.1 hstatus
    simp only [r, List.mem_cons, Prod.mk.injEq, List.not_mem_nil, or_false] at hmem
    rcases hmem with ⟨rfl, -⟩ | ⟨rfl, -⟩
    · exact ⟨_, rfl⟩
    · exact ⟨_, rfl⟩
  have hstart : create ⟨0⟩ = .ok (emptyAt (.ofSeconds 0)) := by decide +kernel
  have hstart' : create ⟨0x3ff0000000000000⟩ = .ok (emptyAt (.ofSeconds 1)) := by rfl
  obtain ⟨once, twice, honce, htwice, hdict, hstatuses, hagree, hfields⟩ :=
    rebuilt_settles.2 r _ _ _ _ hstart hstart' hlists
  exact ⟨by rfl, once, twice, honce, htwice, hdict, hstatuses htidy, hagree, hfields⟩

end Row

end OnlineFeatures
