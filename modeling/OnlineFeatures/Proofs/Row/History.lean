import OnlineFeatures.Proofs.Row.Equality
import OnlineFeatures.Proofs.Row.Fault

/-!
# What a row tells of its history

Whatever is done to a row, failing calls and edits in place among it, only fields have statuses
(`Row.tidy_step`). A run in which nothing fails and nothing is edited in place can be told from its
settings alone: each field holds what it was last set to, and the fields stand in the order in which
they were first set (`Row.ToldBy`, kept by each step in `Row.ToldBy.step`). `SharedRow.run_history`
puts this together for the runs of a new row.
-/

namespace OnlineFeatures

/-! ## Look-ups after storing -/

namespace Row

@[simp]
theorem find?_fields_storeField (r : Row) (field name : String) (v : Value) :
    (r.storeField field v).fields.find? name = if name = field then some v
      else r.fields.find? name :=
  OrderedMap.find?_set r.fields field name v

@[simp]
theorem statuses_storeField (r : Row) (field : String) (v : Value) :
    (r.storeField field v).statuses = r.statuses := rfl

@[simp]
theorem fields_storeStatus (r : Row) (field : String) (status : Option FieldStatus) :
    (r.storeStatus field status).fields = r.fields := by
  cases status <;> rfl

@[simp]
theorem timestamp_storeStatus (r : Row) (field : String) (status : Option FieldStatus) :
    (r.storeStatus field status).timestamp = r.timestamp := by
  cases status <;> rfl

@[simp]
theorem find?_statuses_storeStatus (r : Row) (field name : String) (status : Option FieldStatus) :
    (r.storeStatus field status).statuses.find? name =
      if name = field then status else r.statuses.find? name := by
  cases status with
  | none => exact OrderedMap.find?_erase r.statuses field name
  | some s => exact OrderedMap.find?_set r.statuses field name s

theorem find?_fields_store (r : Row) (field name : String) (v : Value)
    (status : Option FieldStatus) :
    (r.store field v status).fields.find? name = if name = field then some v
      else r.fields.find? name := by
  rw [store, fields_storeStatus, find?_fields_storeField]

theorem find?_statuses_store (r : Row) (field name : String) (v : Value)
    (status : Option FieldStatus) :
    (r.store field v status).statuses.find? name =
      if name = field then status else r.statuses.find? name := by
  rw [store, find?_statuses_storeStatus, statuses_storeField]

theorem keys_fields_store (r : Row) (field : String) (v : Value) (status : Option FieldStatus) :
    (r.store field v status).fields.keys =
      if field ∈ r.fields.keys then r.fields.keys else r.fields.keys ++ [field] := by
  rw [store, fields_storeStatus]
  exact OrderedMap.keys_setEntry field v r.fields.entries

/-! ## Reading -/

theorem givenStatus_eq_map {status : Native} (h : status ≠ .none) :
    givenStatus status = status.toStatus.map some := by
  unfold givenStatus
  split
  · exact absurd rfl h
  · rfl

theorem lookup_toDict (r : Row) (name : String) :
    r.toDict.lookup name = (r.fields.find? name).map Value.unwrap :=
  OrderedMap.lookup_map_values Value.unwrap name r.fields.entries

theorem keys_toDict (r : Row) : r.toDict.map (·.1) = r.fields.keys := by
  rw [toDict, List.map_map]
  rfl

/-- A new row has the time of the clock in whole seconds. -/
theorem timestamp_of_create {now : Double} {r : Row} (h : create now = .ok r) :
    ∃ n, now.truncated = .ok n ∧ r.timestamp.seconds.toInt = n ∧ r.timestamp.nanos = 0 := by
  rw [create] at h
  split at h
  · rename_i n hn
    obtain ⟨t, ht, rfl⟩ := Except.map_eq_ok_iff.1 h
    rw [Timestamp.ofWholeSeconds] at ht
    split at ht
    · rename_i hrange
      cases ht
      refine ⟨n, hn, ?_, rfl⟩
      show (Int64.ofInt n).toInt = n
      rw [Int64.toInt_ofInt_of_le] <;> omega
    · cases ht
  · cases h

/-! ## Only fields have statuses -/

/-- Whether only fields have statuses. -/
def Tidy (r : Row) : Prop :=
  ∀ name status, r.statuses.find? name = some status → ∃ v, r.fields.find? name = some v

variable {r : Row}

theorem tidy_emptyAt (t : Timestamp) : (emptyAt t).Tidy := by
  intro name status h
  cases h

theorem Tidy.storeField (h : r.Tidy) (field : String) (v : Value) :
    (r.storeField field v).Tidy := by
  intro name status hstatus
  rw [find?_fields_storeField]
  by_cases hname : name = field
  · exact ⟨v, if_pos hname⟩
  · rw [if_neg hname]
    exact h name status hstatus

theorem Tidy.store (h : r.Tidy) (field : String) (v : Value) (given : Option FieldStatus) :
    (r.store field v given).Tidy := by
  intro name status hstatus
  rw [find?_fields_store]
  rw [find?_statuses_store] at hstatus
  by_cases hname : name = field
  · exact ⟨v, if_pos hname⟩
  · rw [if_neg hname] at hstatus ⊢
    exact h name status hstatus

/-- Each step keeps a row tidy, also a step that fails. -/
theorem tidy_step (h : r.Tidy) (s : SharedRow.Step) : (r.step s).1.Tidy := by
  cases s with
  | set field v status =>
    show (r.set field v status).1.Tidy
    -- a refused status is the one failure after which something has been stored
    rcases set_cases r field v status with ⟨why, -, heq⟩ | ⟨stored, why, -, -, heq⟩ |
      ⟨stored, given, -, -, heq⟩
    · rw [heq]
      exact h
    · rw [heq]
      exact h.storeField field stored
    · rw [heq]
      exact h.store field stored given
  | setTimestamp v =>
    show (r.setTimestamp v).1.Tidy
    unfold setTimestamp
    split
    · exact h
    · exact h
  | copy source target =>
    simp only [step]
    split
    · exact h.store target _ none
    · exact h
  | keep => exact h
  | editField field text =>
    simp only [step]
    split
    · exact h.storeField field _
    · exact h
  | editTimestamp seconds => exact h
  | remove field => exact h

end Row

namespace SharedRow

theorem tidy_run {w : SharedRow} (howns : w.Owns w.row) (h : w.current.Tidy) (steps : List Step) :
    (w.run steps).current.Tidy := by
  rw [current_run howns]
  clear howns
  generalize w.current = r at h
  induction steps generalizing r with
  | nil => exact h
  | cons s steps ih => exact ih _ (Row.tidy_step h s)

end SharedRow

/-! ## Settings -/

/-- One setting of a field. -/
structure Setting where
  field : String
  value : Native
  status : Native

/-- The last setting of a field. -/
def Setting.last? (name : String) (settings : List Setting) : Option Setting :=
  settings.reverse.find? (·.field == name)

theorem Setting.last?_append (name : String) (settings : List Setting) (c : Setting) :
    last? name (settings ++ [c]) = if name = c.field then some c else last? name settings := by
  rw [last?, List.reverse_append, List.reverse_singleton, List.singleton_append]
  by_cases hname : name = c.field
  · rw [List.find?_cons_of_pos (by simp [hname]), if_pos hname]
  · rw [List.find?_cons_of_neg (by simpa using Ne.symm hname), if_neg hname, last?]

/-- What a step sets in a row. A copy sets the value that the row holds, without a status. -/
def Row.setting? (r : Row) : SharedRow.Step → Option Setting
  | .set field v status => some ⟨field, v, status⟩
  | .copy source target => (r.fields.find? source).map fun v => ⟨target, .value v, .none⟩
  | _ => none

/-- The point in time that a step gives. -/
def SharedRow.Step.moment? : SharedRow.Step → Option Native
  | .setTimestamp v => some v
  | _ => none

/-- Whether a step writes into what the row has given away. -/
def SharedRow.Step.EditsInPlace : SharedRow.Step → Prop
  | .editField .. | .editTimestamp _ => True
  | _ => False

/-- Whether a step has failed. -/
def SharedRow.StepResult.Failed : SharedRow.StepResult → Prop
  | .rowFault _ | .momentFault _ => True
  | _ => False

namespace SharedRow

/-- The settings of a run, in order. -/
def settings (w : SharedRow) : List Step → List Setting
  | [] => []
  | s :: steps => (w.current.setting? s).toList ++ (w.step s).1.settings steps

/-- The points in time that a run gives, in order. -/
def moments (steps : List Step) : List Native := steps.filterMap Step.moment?

/-- Whether nothing fails in a run and nothing is edited in place. -/
def Undisturbed (w : SharedRow) : List Step → Prop
  | [] => True
  | s :: steps => ¬ s.EditsInPlace ∧ ¬ (w.step s).2.Failed ∧ (w.step s).1.Undisturbed steps

end SharedRow

/-! ## What settings tell -/

namespace Row

/-- Whether a row is as its settings and the points in time that it was given tell: each field holds
what it was last set to, with the status of that setting, and the fields stand in the order of their
first settings. -/
structure ToldBy (start : Timestamp) (settings : List Setting) (moments : List Native) (r : Row) :
    Prop where
  unset : ∀ name, Setting.last? name settings = none →
    r.fields.find? name = none ∧ r.statuses.find? name = none
  held : ∀ name c, Setting.last? name settings = some c → ∃ v given,
    c.value.infer = .ok v ∧ givenStatus c.status = .ok given ∧
      r.fields.find? name = some v ∧ r.statuses.find? name = given
  order : r.fields.keys = (settings.map (·.field)).eraseDups
  moment : moments.getLast?.elim (r.timestamp = start) fun v => v.toTimestamp = .ok r.timestamp

variable {start : Timestamp} {settings : List Setting} {moments : List Native} {r : Row}

theorem toldBy_emptyAt (start : Timestamp) : (emptyAt start).ToldBy start [] [] where
  unset _ _ := ⟨rfl, rfl⟩
  held _ _ h := by cases h
  order := by rfl
  moment := rfl

/-- Storing what a setting gives is told by one more setting. -/
theorem ToldBy.store (h : r.ToldBy start settings moments) {c : Setting} {v : Value}
    {given : Option FieldStatus} (hv : c.value.infer = .ok v)
    (hgiven : givenStatus c.status = .ok given) :
    (r.store c.field v given).ToldBy start (settings ++ [c]) moments where
  unset name hlast := by
    rw [Setting.last?_append] at hlast
    rw [find?_fields_store, find?_statuses_store]
    by_cases hname : name = c.field
    · rw [if_pos hname] at hlast
      cases hlast
    · rw [if_neg hname] at hlast
      rw [if_neg hname, if_neg hname]
      exact h.unset name hlast
  held name d hlast := by
    rw [Setting.last?_append] at hlast
    rw [find?_fields_store, find?_statuses_store]
    by_cases hname : name = c.field
    · rw [if_pos hname] at hlast
      obtain rfl := Option.some.inj hlast
      exact ⟨v, given, hv, hgiven, if_pos hname, if_pos hname⟩
    · rw [if_neg hname] at hlast
      rw [if_neg hname, if_neg hname]
      exact h.held name d hlast
  order := by
    rw [keys_fields_store, h.order, List.map_append, List.map_singleton, eraseDups_append_singleton]
  moment := by
    rw [Row.store, timestamp_storeStatus]
    exact h.moment

theorem ToldBy.set (h : r.ToldBy start settings moments) {c : Setting}
    (hok : (r.set c.field c.value c.status).2 = .ok ()) :
    (r.set c.field c.value c.status).1.ToldBy start (settings ++ [c]) moments := by
  rcases set_cases r c.field c.value c.status with ⟨why, -, heq⟩ | ⟨stored, why, -, -, heq⟩ |
    ⟨stored, given, hstored, hgiven, heq⟩
  · rw [heq] at hok
    cases hok
  · rw [heq] at hok
    cases hok
  · rw [heq]
    exact h.store hstored hgiven

theorem ToldBy.setTimestamp (h : r.ToldBy start settings moments) {v : Native}
    (hok : (r.setTimestamp v).2 = .ok ()) :
    (r.setTimestamp v).1.ToldBy start settings (moments ++ [v]) := by
  unfold Row.setTimestamp at hok ⊢
  split
  · rename_i t ht
    refine ⟨h.unset, h.held, h.order, ?_⟩
    rw [List.getLast?_concat]
    exact ht
  · rename_i why hwhy
    rw [hwhy] at hok
    cases hok

/-- One more step of a run in which nothing fails and nothing is edited in place. -/
theorem ToldBy.step (h : r.ToldBy start settings moments) {s : SharedRow.Step}
    (hedit : ¬ s.EditsInPlace) (hok : ¬ (r.step s).2.Failed) :
    (r.step s).1.ToldBy start (settings ++ (r.setting? s).toList)
    (moments ++ s.moment?.toList) := by
  have hnothing : r.ToldBy start (settings ++ []) (moments ++ []) := by
    rw [List.append_nil, List.append_nil]
    exact h
  -- steps that store nothing leave the history as it is; a copy counts as a setting of its own
  cases s with
  | set field v status =>
    show (r.set field v status).1.ToldBy start (settings ++ [⟨field, v, status⟩]) (moments ++ [])
    rw [List.append_nil]
    cases hresult : (r.set field v status).2 with
    | ok => exact h.set (c := ⟨field, v, status⟩) hresult
    | error why =>
      have hfailed : (r.step (.set field v status)).2 = .rowFault why :=
        congrArg SharedRow.StepResult.ofRow hresult
      rw [hfailed] at hok
      exact absurd trivial hok
  | setTimestamp v =>
    show (r.setTimestamp v).1.ToldBy start (settings ++ []) (moments ++ [v])
    rw [List.append_nil]
    cases hresult : (r.setTimestamp v).2 with
    | ok => exact h.setTimestamp hresult
    | error why =>
      have hfailed : (r.step (.setTimestamp v)).2 = .momentFault why :=
        congrArg SharedRow.StepResult.ofMoment hresult
      rw [hfailed] at hok
      exact absurd trivial hok
  | copy source target =>
    cases hv : r.fields.find? source with
    | none =>
      simp only [Row.step, setting?, hv]
      exact hnothing
    | some v =>
      simp only [Row.step, setting?, hv]
      show (r.store target v none).ToldBy start (settings ++ [⟨target, .value v, .none⟩])
        (moments ++ [])
      rw [List.append_nil]
      exact h.store rfl rfl
  | editField field text => exact absurd trivial hedit
  | editTimestamp seconds => exact absurd trivial hedit
  | keep => exact hnothing
  | remove field => exact hnothing

section Reading

variable (h : r.ToldBy start settings moments) {name : String}

include h

theorem ToldBy.reads_default (hlast : Setting.last? name settings = none) :
    r.fields.find? name = none ∧ r.status? name = none ∧ r.toDict.lookup name = none ∧
      ∀ default, r.get name default = default := by
  obtain ⟨hfield, hstatus⟩ := h.unset name hlast
  refine ⟨hfield, hstatus, ?_, fun default => ?_⟩
  · rw [lookup_toDict, hfield]
    rfl
  · rw [get, hfield]
    rfl

theorem ToldBy.reads_value {c : Setting} (hlast : Setting.last? name settings = some c) :
    ∃ v, c.value.infer = .ok v ∧ r.fields.find? name = some v ∧
      r.toDict.lookup name = some v.unwrap ∧ ∀ default, r.get name default = v.unwrap := by
  obtain ⟨v, -, hv, -, hfield, -⟩ := h.held name c hlast
  refine ⟨v, hv, hfield, ?_, fun default => ?_⟩
  · rw [lookup_toDict, hfield]
    rfl
  · rw [get, hfield]
    rfl

theorem ToldBy.reads_status {c : Setting} (hlast : Setting.last? name settings = some c) :
    (c.status = .none → r.status? name = none) ∧
      (c.status ≠ .none →
        ∃ status, c.status.toStatus = .ok status ∧ r.status? name = some status) := by
  obtain ⟨-, given, -, hgiven, -, hstatus⟩ := h.held name c hlast
  constructor
  · intro hnone
    rw [hnone] at hgiven
    cases hgiven
    exact hstatus
  · intro hsome
    rw [givenStatus_eq_map hsome] at hgiven
    obtain ⟨status, htoStatus, rfl⟩ := Except.map_eq_ok_iff.1 hgiven
    exact ⟨status, htoStatus, hstatus⟩

theorem ToldBy.timestamp_eq_start (hlast : moments.getLast? = none) : r.timestamp = start := by
  have hmoment := h.moment
  rw [hlast] at hmoment
  exact hmoment

theorem ToldBy.toTimestamp_eq {v : Native} (hlast : moments.getLast? = some v) :
    v.toTimestamp = .ok r.timestamp := by
  have hmoment := h.moment
  rw [hlast] at hmoment
  exact hmoment

end Reading

end Row

namespace SharedRow

/-- A run in which nothing fails and nothing is edited in place is told by its settings. -/
theorem toldBy_run {start : Timestamp} {w : SharedRow} (howns : w.Owns w.row)
    {before : List Setting} {earlier : List Native} (h : w.current.ToldBy start before earlier)
    {steps : List Step} (hsteps : w.Undisturbed steps) :
    (w.run steps).current.ToldBy start (before ++ w.settings steps) (earlier ++ moments steps) := by
  -- the history told so far grows with each step, so it is a parameter of the induction
  induction steps generalizing w before earlier with
  | nil =>
    show w.current.ToldBy start (before ++ []) (earlier ++ [])
    rw [List.append_nil, List.append_nil]
    exact h
  | cons s steps ih =>
    obtain ⟨hedit, hok, hsteps⟩ := hsteps
    have hstep : (w.step s).map current id = w.current.step s := current_step howns s
    have hcurrent : (w.step s).1.current = (w.current.step s).1 := congrArg Prod.fst hstep
    have hresult : (w.step s).2 = (w.current.step s).2 := congrArg Prod.snd hstep
    have hnext := h.step hedit (hresult ▸ hok)
    rw [← hcurrent] at hnext
    have hrest := ih (owns_step howns s) hnext hsteps
    rw [List.append_assoc, List.append_assoc] at hrest
    have hmoments : s.moment?.toList ++ moments steps = moments (s :: steps) := by
      rw [moments, moments, List.filterMap_cons]
      cases s.moment? <;> rfl
    rw [hmoments] at hrest
    exact hrest

end SharedRow

/-! ## Settings of different fields -/

namespace Row

/-- Setting a field acts on the look-up of that field alone, and in a way that does not depend on
the row. -/
theorem exists_set_find? (field : String) (v status : Native) :
    ∃ (value : Option Value → Option Value) (given : Option FieldStatus → Option FieldStatus),
      ∀ (r : Row) (name : String),
        (r.set field v status).1.fields.find? name =
          (if name = field then value (r.fields.find? name) else r.fields.find? name) ∧
        (r.set field v status).1.statuses.find? name =
          (if name = field then given (r.statuses.find? name) else r.statuses.find? name) := by
  cases hv : v.infer with
  | error why =>
    refine ⟨id, id, fun r name => ?_⟩
    simp [set, hv]
  | ok stored =>
    cases hstatus : givenStatus status with
    | error why =>
      refine ⟨fun _ => some stored, id, fun r name => ?_⟩
      simp [set, hv, hstatus]
    | ok given =>
      refine ⟨fun _ => some stored, fun _ => given, fun r name => ?_⟩
      simp only [set, hv, hstatus]
      exact ⟨find?_fields_store .., find?_statuses_store ..⟩

/-- Settings of different fields commute, failing ones among them. -/
theorem agree_set_comm (r : Row) {field field' : String} (hne : field ≠ field')
    (v v' status status' : Native) :
    ((r.set field v status).1.set field' v' status').1.agree
      ((r.set field' v' status').1.set field v status).1 = true := by
  obtain ⟨value, given, hset⟩ := exists_set_find? field v status
  obtain ⟨value', given', hset'⟩ := exists_set_find? field' v' status'
  refine agree_iff.2 ⟨fun name => ?_, fun name => ?_⟩
  · simp only [(hset _ _).1, (hset' _ _).1]
    by_cases hname : name = field
    · simp [hname, hne]
    · simp [hname]
  · simp only [(hset _ _).2, (hset' _ _).2]
    by_cases hname : name = field
    · simp [hname, hne]
    · simp [hname]

end Row

/-! ## Runs of a new row -/

namespace SharedRow

/-- What a run of a new row leaves.

Only fields have statuses, whatever was done. If nothing failed and nothing was edited in place,
then a field that was never set is not there and reads as the default; any other field holds what
its last setting was converted to, reads so under its name and in the map of all fields alike, and
has the status of that setting, none if that setting gave none. The fields stand in the order of
their first settings. The point in time is the last one given, or that of the clock at the beginning
in whole seconds. Settings of different fields commute, on any row. -/
theorem run_history {now : Double} {created : Row} (hcreate : Row.create now = .ok created)
    (steps : List Step) :
    let w := ofTimestamp created.timestamp
    let r := (w.run steps).current
    (∀ name status, r.status? name = some status → ∃ v, r.fields.find? name = some v) ∧
    (w.Undisturbed steps →
      (∀ name, Setting.last? name (w.settings steps) = none →
        r.fields.find? name = none ∧ r.status? name = none ∧ r.toDict.lookup name = none ∧
          ∀ default, r.get name default = default) ∧
      (∀ name c, Setting.last? name (w.settings steps) = some c →
        (∃ v, c.value.infer = .ok v ∧ r.fields.find? name = some v ∧
          r.toDict.lookup name = some v.unwrap ∧ ∀ default, r.get name default = v.unwrap) ∧
        (c.status = .none → r.status? name = none) ∧
        (c.status ≠ .none →
          ∃ status, c.status.toStatus = .ok status ∧ r.status? name = some status)) ∧
      r.fields.keys = ((w.settings steps).map (·.field)).eraseDups ∧
      r.toDict.map (·.1) = r.fields.keys ∧
      ((moments steps).getLast? = none →
        ∃ n, now.truncated = .ok n ∧ r.timestamp.seconds.toInt = n ∧ r.timestamp.nanos = 0) ∧
      ∀ v, (moments steps).getLast? = some v → v.toTimestamp = .ok r.timestamp) ∧
    ∀ (r : Row) (field field' : String) (v v' status status' : Native), field ≠ field' →
      ((r.set field v status).1.set field' v' status').1.agree
        ((r.set field' v' status').1.set field v status).1 = true := by
  intro w r
  have howns : w.Owns w.row := owns_ofTimestamp _
  refine ⟨tidy_run howns (Row.tidy_emptyAt _) steps, fun hsteps => ?_,
    fun r _ _ v v' status status' hne => r.agree_set_comm hne v v' status status'⟩
  have htold : r.ToldBy created.timestamp (w.settings steps) (moments steps) :=
    toldBy_run howns (Row.toldBy_emptyAt _) hsteps
  refine ⟨fun name hlast => htold.reads_default hlast,
    fun name c hlast => ⟨htold.reads_value hlast, htold.reads_status hlast⟩,
    htold.order, r.keys_toDict, fun hlast => ?_, fun v hlast => htold.toTimestamp_eq hlast⟩
  rw [htold.timestamp_eq_start hlast]
  exact Row.timestamp_of_create hcreate

/-- A field that is set again without a status, behind which another one is copied. -/
theorem run_history_copy :
    let w := ofTimestamp (.ofSeconds 1)
    let steps : List Step := [.set "a" (.int 1) (.status .present), .set "b" (.text "x") (.int 9),
      .set "a" (.int 2) .none, .copy "b" "c", .setTimestamp (.int 5)]
    let r := (w.run steps).current
    r.fields.keys = ["a", "b", "c"] ∧ r.status? "a" = none ∧ r.status? "b" = some .invalid ∧
      (∀ default, r.get "a" default = .int 2) ∧ (∀ default, r.get "d" default = default) ∧
      r.timestamp = .ofSeconds 5 ∧
      ((r.set "a" (.bool true) .none).1.set "d" (.int 3) (.text "x")).1.agree
        ((r.set "d" (.int 3) (.text "x")).1.set "a" (.bool true) .none).1 = true := by
  intro w steps r
  have hcreate : Row.create ⟨0x3ff0000000000000⟩ = .ok (Row.emptyAt (.ofSeconds 1)) := by rfl
  have hsteps : w.Undisturbed steps :=
    ⟨not_false, not_false, not_false, not_false, not_false, not_false, not_false,
      not_false, not_false, not_false, trivial⟩
  obtain ⟨-, htold, hcomm⟩ := run_history hcreate steps
  obtain ⟨hunset, hheld, horder, -, -, hmoment⟩ := htold hsteps
  obtain ⟨⟨v, hv, -, -, hget⟩, hstatus, -⟩ := hheld "a" ⟨"a", .int 2, .none⟩ (by rfl)
  obtain ⟨-, -, hstatus'⟩ := hheld "b" ⟨"b", .text "x", .int 9⟩ (by rfl)
  obtain ⟨status, hinvalid, hstatus'⟩ := hstatus' nofun
  cases hv
  cases hinvalid
  have htimestamp := hmoment (.int 5) (by rfl)
  refine ⟨horder, hstatus rfl, hstatus', hget, (hunset "d" (by rfl)).2.2.2, ?_,
    hcomm r "a" "d" _ _ _ _ (by decide)⟩
  exact (Except.ok.inj htimestamp).symm

end SharedRow

end OnlineFeatures
