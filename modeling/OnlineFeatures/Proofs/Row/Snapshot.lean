import OnlineFeatures.Proofs.Row.Objects
import OnlineFeatures.Proofs.Row.Shared

/-!
# What a snapshot shares with its row

The maps and the timestamp that a row gave away are copies only on the outside: the names and the
statuses in them stay, while the values and the timestamp are the row's own objects until the row
takes other ones (`SharedRow.snapshot_shares`).

The values of a row and its timestamps are two sorts of objects held under keys, the names of fields
and a single key. Every action has an effect of its own on each (`SharedRow.valueObjects_act`,
`SharedRow.momentObjects_act`), so that what becomes of the objects in a snapshot is what
`Objects.getElem?_run` says.
-/

namespace OnlineFeatures

namespace SharedRow

/-! ## Actions -/

/-- Edits the value that a field holds, in place and in any way. -/
def editValue (w : SharedRow) (field : String) (edit : Value → Value) : SharedRow :=
  match w.row.fields.find? field with
  | some id => { w with values := w.values.modify id edit }
  | none => w

/-- Edits the row's timestamp, in place and in any way. -/
def editMoment (w : SharedRow) (edit : Timestamp → Timestamp) : SharedRow :=
  { w with timestamps := w.timestamps.modify w.row.timestamp edit }

/-- What callers do: a step, or any edit in place of what the row has just given away. -/
inductive Action where
  | step (s : Step)
  | editValue (field : String) (edit : Value → Value)
  | editMoment (edit : Timestamp → Timestamp)

/-- Whether an action takes a snapshot. -/
def Action.Keeps : Action → Prop
  | .step .keep => True
  | _ => False

def act (w : SharedRow) : Action → SharedRow
  | .step s => (w.step s).1
  | .editValue field edit => w.editValue field edit
  | .editMoment edit => w.editMoment edit

/-- Does actions one after another. -/
def actAll (w : SharedRow) (actions : List Action) : SharedRow := actions.foldl act w

/-- The edit that writes a text into a value. -/
def writeText (text : String) (v : Value) : Value := { v with content := some (.text text) }

/-- The edit that writes seconds into a timestamp. -/
def writeSeconds (seconds : Int64) (t : Timestamp) : Timestamp := { t with seconds }

theorem editField_eq (w : SharedRow) (field text : String) :
    (w.editField field text).1 = w.editValue field (writeText text) := by
  unfold editField editValue
  cases w.row.fields.find? field <;> rfl

/-! ## The values -/

/-- What an action does to the values. A field is stored as soon as its value can be converted, also
when the status is refused then. -/
def valueEffect (w : SharedRow) : Action → Effect String Value
  | .step (.set field v _) => v.infer.toOption.elim .nothing (.store field)
  | .step (.copy source target) => (w.current.fields.find? source).elim .nothing (.store target)
  | .step (.editField field text) => .edit field (writeText text)
  | .step _ => .nothing
  | .editValue field edit => .edit field edit
  | .editMoment _ => .nothing

/-- What a run does to the values, in order. -/
def valueEffects (w : SharedRow) : List Action → List (Effect String Value)
  | [] => []
  | a :: actions => w.valueEffect a :: (w.act a).valueEffects actions

/-- The values as objects held under the names of fields. -/
def valueObjects (w : SharedRow) : Objects String Value := ⟨w.row.fields.find?, w.values⟩

theorem valueObjects_storeField (w : SharedRow) (field : String) (v : Value) :
    (w.storeField field v).valueObjects = w.valueObjects.after (.store field v) := by
  have hheld : (w.row.fields.set field w.values.length).find? =
      fun k => if k = field then some w.values.length else w.row.fields.find? k := by
    funext k
    exact OrderedMap.find?_set w.row.fields field k w.values.length
  exact congrArg (Objects.mk · (w.values ++ [v])) hheld

theorem valueObjects_editValue (w : SharedRow) (field : String) (edit : Value → Value) :
    (w.editValue field edit).valueObjects = w.valueObjects.after (.edit field edit) := by
  unfold editValue valueObjects Objects.after
  cases h : w.row.fields.find? field with
  | none => simp [h]
  | some id => simp [h]

theorem valueObjects_act (w : SharedRow) (a : Action) :
    (w.act a).valueObjects = w.valueObjects.after (w.valueEffect a) := by
  cases a with
  | editValue field edit => exact valueObjects_editValue w field edit
  | editMoment edit => rfl
  | step s =>
    cases s with
    | set field v status =>
      simp only [act, step, set, valueEffect]
      cases v.infer with
      | error why => rfl
      | ok stored =>
        -- the status changes no value, whether it is refused or not
        cases Row.givenStatus status with
        | error why => exact valueObjects_storeField w field stored
        | ok given => exact valueObjects_storeField w field stored
    | setTimestamp v =>
      simp only [act, step, setTimestamp, valueEffect]
      cases v.toTimestamp <;> rfl
    | copy source target =>
      simp only [act, step, copy, valueEffect, find?_current]
      cases w.row.fields.find? source with
      | none => rfl
      | some id => exact valueObjects_storeField w target (w.valueAt id)
    | keep => rfl
    | editField field text =>
      have hedit : w.act (.step (.editField field text)) = w.editValue field (writeText text) :=
        editField_eq w field text
      rw [hedit]
      exact valueObjects_editValue w field (writeText text)
    | editTimestamp seconds => rfl
    | remove field => rfl

theorem valueObjects_actAll (w : SharedRow) (actions : List Action) :
    (w.actAll actions).valueObjects = w.valueObjects.run (w.valueEffects actions) := by
  induction actions generalizing w with
  | nil => rfl
  | cons a actions ih =>
    refine (ih (w.act a)).trans ?_
    rw [valueObjects_act]
    rfl

theorem separate_ofTimestamp (t : Timestamp) : (ofTimestamp t).valueObjects.Separate :=
  ⟨nofun, nofun⟩

/-- No two fields of a row ever have the same value object. -/
theorem separate_actAll {w : SharedRow} (h : w.valueObjects.Separate) (actions : List Action) :
    (w.actAll actions).valueObjects.Separate := by
  rw [valueObjects_actAll]
  exact h.run _

/-! ## The timestamps -/

/-- What an action does to the timestamp. -/
def momentEffect : Action → Effect Unit Timestamp
  | .step (.setTimestamp v) => v.toTimestamp.toOption.elim .nothing (.store ())
  | .step (.editTimestamp seconds) => .edit () (writeSeconds seconds)
  | .step _ => .nothing
  | .editValue .. => .nothing
  | .editMoment edit => .edit () edit

/-- The timestamps as objects of which one is held. -/
def momentObjects (w : SharedRow) : Objects Unit Timestamp :=
  ⟨fun _ => some w.row.timestamp, w.timestamps⟩

theorem momentObjects_act (w : SharedRow) (a : Action) :
    (w.act a).momentObjects = w.momentObjects.after (momentEffect a) := by
  cases a with
  | editValue field edit =>
    simp only [act, editValue]
    cases w.row.fields.find? field <;> rfl
  | editMoment edit => rfl
  | step s =>
    cases s with
    | set field v status =>
      simp only [act, step, set]
      cases v.infer with
      | error why => rfl
      | ok stored => cases Row.givenStatus status <;> rfl
    | setTimestamp v =>
      simp only [act, step, setTimestamp, momentEffect]
      cases v.toTimestamp <;> rfl
    | copy source target =>
      simp only [act, step, copy]
      cases w.row.fields.find? source <;> rfl
    | keep => rfl
    | editField field text =>
      simp only [act, step, editField]
      cases w.row.fields.find? field <;> rfl
    | editTimestamp seconds => rfl
    | remove field => rfl

theorem momentObjects_actAll (w : SharedRow) (actions : List Action) :
    (w.actAll actions).momentObjects = w.momentObjects.run (actions.map momentEffect) := by
  induction actions generalizing w with
  | nil => rfl
  | cons a actions ih =>
    refine (ih (w.act a)).trans ?_
    rw [momentObjects_act]
    rfl

theorem separate_moments_ofTimestamp (t : Timestamp) : (ofTimestamp t).momentObjects.Separate where
  live key id hid := by
    obtain rfl := Option.some.inj hid
    exact Nat.zero_lt_one
  distinct _ _ _ _ _ := rfl

theorem separate_moments_actAll {w : SharedRow} (h : w.momentObjects.Separate)
    (actions : List Action) :
    (w.actAll actions).momentObjects.Separate := by
  rw [momentObjects_actAll]
  exact h.run _

/-! ## Snapshots -/

/-- A snapshot shows each value with the edits that were made through its field until a value was
next stored there. -/
theorem entries_view_actAll {w : SharedRow} (h : w.valueObjects.Separate) (actions : List Action) :
    ((w.actAll actions).view w.row).fields.entries = w.current.fields.entries.map fun (name, v) =>
      (name, applied (editsUntilStored name (w.valueEffects actions)) v) := by
  show w.row.fields.entries.map _ = (w.row.fields.entries.map _).map _
  rw [List.map_map]
  refine List.map_congr_left fun p hp => ?_
  obtain ⟨name, id⟩ := p
  have hid : w.valueObjects.held name = some id := OrderedMap.find?_eq_some_iff_mem.2 hp
  have hlive : id < w.values.length := h.live name id hid
  have hrun : (w.actAll actions).values[id]? =
      w.values[id]?.map (applied (editsUntilStored name (w.valueEffects actions))) := by
    have hobjects := congrArg Objects.all (valueObjects_actAll w actions)
    exact (congrArg (·[id]?) hobjects).trans (Objects.getElem?_run h hid _)
  simp [valueAt, hrun, List.getElem?_eq_getElem hlive]

theorem timestamp_view_actAll {w : SharedRow} (h : w.momentObjects.Separate)
    (actions : List Action) :
    ((w.actAll actions).view w.row).timestamp =
      applied (editsUntilStored () (actions.map momentEffect)) w.current.timestamp := by
  have hlive : w.row.timestamp < w.timestamps.length := h.live () _ rfl
  have hrun : (w.actAll actions).timestamps[w.row.timestamp]? =
      w.timestamps[w.row.timestamp]?.map
        (applied (editsUntilStored () (actions.map momentEffect))) := by
    have hobjects := congrArg Objects.all (momentObjects_actAll w actions)
    exact (congrArg (·[w.row.timestamp]?) hobjects).trans (Objects.getElem?_run h rfl _)
  simp [current, view, timestampAt, hrun, List.getElem?_eq_getElem hlive]

/-- An edit through a field changes that field of the row only. -/
theorem current_editValue {w : SharedRow} (h : w.valueObjects.Separate) (field : String)
    (edit : Value → Value) :
    let r := (w.editValue field edit).current
    r.fields.entries = w.current.fields.entries.map (fun (name, v) =>
      (name, if name = field then edit v else v)) ∧
    r.statuses = w.current.statuses ∧ r.timestamp = w.current.timestamp := by
  intro r
  have hrow : (w.editValue field edit).row = w.row ∧
      (w.editValue field edit).timestamps = w.timestamps := by
    unfold editValue
    cases w.row.fields.find? field <;> exact ⟨rfl, rfl⟩
  have hcurrent : r = (w.actAll [.editValue field edit]).view w.row :=
    congrArg (w.editValue field edit).view hrow.1
  refine ⟨?_, by rw [hcurrent]; rfl, ?_⟩
  · rw [hcurrent, entries_view_actAll h]
    refine List.map_congr_left fun p _ => ?_
    by_cases hname : field = p.1
    · simp [valueEffects, valueEffect, editsUntilStored, applied, hname]
    · simp [valueEffects, valueEffect, editsUntilStored, applied, hname, Ne.symm hname]
  · show ((w.editValue field edit).timestamps[(w.editValue field edit).row.timestamp]?).getD _ = _
    rw [hrow.1, hrow.2]
    rfl

theorem kept_act {w : SharedRow} {a : Action} (h : ¬ a.Keeps) : (w.act a).kept = w.kept := by
  cases a with
  | editValue field edit =>
    simp only [act, editValue]
    cases w.row.fields.find? field <;> rfl
  | editMoment edit => rfl
  | step s =>
    cases s with
    | set field v status =>
      simp only [act, step, set]
      cases v.infer with
      | error why => rfl
      | ok stored => cases Row.givenStatus status <;> rfl
    | setTimestamp v =>
      simp only [act, step, setTimestamp]
      cases v.toTimestamp <;> rfl
    | copy source target =>
      simp only [act, step, copy]
      cases w.row.fields.find? source <;> rfl
    | keep => exact absurd trivial h
    | editField field text =>
      simp only [act, step, editField]
      cases w.row.fields.find? field <;> rfl
    | editTimestamp seconds => rfl
    | remove field => rfl

theorem kept_actAll {w : SharedRow} {actions : List Action} (h : ∀ a ∈ actions, ¬ a.Keeps) :
    (w.actAll actions).kept = w.kept := by
  induction actions generalizing w with
  | nil => rfl
  | cons a actions ih =>
    obtain ⟨ha, h⟩ := List.forall_mem_cons.1 h
    exact (ih h).trans (kept_act ha)

/-- What a new row and a snapshot of it share, whatever is done before and after the snapshot is
taken.

No two fields of the row have the same value object, and so an edit in place through a field changes
that field of the row only, also after a field was set to the value of another one. The snapshot's
map of fields has the names that the row had, in their order; under each stands the value of that
moment with the edits that were made in place through the row's field until a value was next stored
there, and no others. Its statuses stay as they were. Its timestamp takes the edits in place until
the row is next given another one. -/
theorem snapshot_shares (t : Timestamp) (before after : List Action) :
    let taken := ((ofTimestamp t).actAll before).act (.step .keep)
    let w := taken.actAll after
    (∀ field field' id, w.row.fields.find? field = some id → w.row.fields.find? field' = some id →
      field = field') ∧
    (∀ field edit, let r := (w.editValue field edit).current
      r.fields.entries = w.current.fields.entries.map (fun (name, v) =>
        (name, if name = field then edit v else v)) ∧
      r.statuses = w.current.statuses ∧ r.timestamp = w.current.timestamp) ∧
    ∃ s, taken.kept = some s ∧ taken.view s = ((ofTimestamp t).actAll before).current ∧
      ((∀ a ∈ after, ¬ a.Keeps) → w.kept = some s) ∧
      (w.view s).fields.entries = (taken.view s).fields.entries.map (fun (name, v) =>
        (name, applied (editsUntilStored name (taken.valueEffects after)) v)) ∧
      (w.view s).statuses = (taken.view s).statuses ∧
      (w.view s).timestamp =
        applied (editsUntilStored () (after.map momentEffect)) (taken.view s).timestamp := by
  intro taken w
  -- taking the snapshot changes none of the objects
  have hvalues : taken.valueObjects.Separate := separate_actAll (separate_ofTimestamp t) before
  have hmoments : taken.momentObjects.Separate :=
    separate_moments_actAll (separate_moments_ofTimestamp t) before
  have hafter : w.valueObjects.Separate := separate_actAll hvalues after
  refine ⟨hafter.distinct, fun field edit => current_editValue hafter field edit,
    taken.row, rfl, rfl, fun hkeeps => kept_actAll hkeeps, ?_, rfl, ?_⟩
  · exact entries_view_actAll hvalues after
  · exact timestamp_view_actAll hmoments after

example :
    let w := (ofTimestamp (.ofSeconds 1)).run [.set "a" (.int 1) .none, .keep, .editField "a" "x",
      .copy "a" "b", .set "a" (.int 2) .none, .editField "a" "y"]
    (w.kept.map fun s => (w.view s).fields.entries) = some [("a", ⟨some (.text "x"), []⟩)] ∧
      w.current.fields.entries =
        [("a", ⟨some (.text "y"), []⟩), ("b", ⟨some (.text "x"), []⟩)] := by
  decide +kernel

end SharedRow

end OnlineFeatures
