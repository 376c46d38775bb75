import OnlineFeatures.Row.Set

/-!
# What rows share

A row gives away its own values and its own point in time: an edit made in place through what was
given away is an edit of the row. To say who sees which edit, values and timestamps are objects
here, each with an identity; a row maps names to the identities of its values, and so does a
snapshot taken of it. Storing a value always makes a new object.
-/

namespace OnlineFeatures

/-- The maps and the timestamp that a row gave away at some moment. -/
structure Snapshot where
  fields : OrderedMap Nat
  statuses : OrderedMap FieldStatus
  timestamp : Nat
  deriving DecidableEq, Repr

/-- A row among the objects that it and a snapshot of it share. Identities are positions in the
lists of objects, which only grow. -/
structure SharedRow where
  values : List Value
  timestamps : List Timestamp
  row : Snapshot
  kept : Option Snapshot
  deriving DecidableEq, Repr

namespace SharedRow

/-! ## Views -/

def valueAt (w : SharedRow) (id : Nat) : Value := (w.values[id]?).getD .unset

def timestampAt (w : SharedRow) (id : Nat) : Timestamp := (w.timestamps[id]?).getD Message.empty

/-- The row that a snapshot shows now. -/
def view (w : SharedRow) (s : Snapshot) : Row :=
  ⟨s.fields.mapValues w.valueAt, s.statuses, w.timestampAt s.timestamp⟩

/-- The row itself as it is now. -/
def current (w : SharedRow) : Row := w.view w.row

/-- A row with objects of its own. -/
def ofTimestamp (t : Timestamp) : SharedRow := ⟨[], [t], ⟨.empty, .empty, 0⟩, none⟩

/-! ## Storing -/

/-- Stores a copy of a value under a field. -/
def storeField (w : SharedRow) (field : String) (v : Value) : SharedRow :=
  { w with
    values := w.values ++ [v]
    row := { w.row with fields := w.row.fields.set field w.values.length } }

/-- Gives a field a status, or takes away the one it has. -/
def storeStatus (w : SharedRow) (field : String) (status : Option FieldStatus) : SharedRow :=
  let statuses := match status with
    | some s => w.row.statuses.set field s
    | none => w.row.statuses.erase field
  { w with row := { w.row with statuses } }

def set (w : SharedRow) (field : String) (v status : Native) : SharedRow × Except RowFault Unit :=
  match v.infer with
  | .error why => (w, .error (.value why))
  | .ok stored =>
    let w := w.storeField field stored
    match Row.givenStatus status with
    | .error why => (w, .error (.status why))
    | .ok given => (w.storeStatus field given, .ok ())

/-- Sets the point in time, to a timestamp object of its own. -/
def setTimestamp (w : SharedRow) (v : Native) : SharedRow × Except MomentFault Unit :=
  match v.toTimestamp with
  | .ok t =>
    ({ w with
      timestamps := w.timestamps ++ [t]
      row := { w.row with timestamp := w.timestamps.length } }, .ok ())
  | .error why => (w, .error why)

/-- Sets a field to the value of another one; false when there is none. -/
def copy (w : SharedRow) (source target : String) : SharedRow × Bool :=
  match w.row.fields.find? source with
  | some id => ((w.storeField target (w.valueAt id)).storeStatus target none, true)
  | none => (w, false)

/-! ## Snapshots and edits in place -/

/-- Keeps a snapshot in place of an earlier one. -/
def keep (w : SharedRow) : SharedRow := { w with kept := some w.row }

/-- Writes a text into the value of a field; false when there is none. -/
def editField (w : SharedRow) (field text : String) : SharedRow × Bool :=
  match w.row.fields.find? field with
  | some id =>
    ({ w with values := w.values.modify id fun v => { v with content := some (.text text) } }, true)
  | none => (w, false)

/-- Writes seconds into the row's timestamp. -/
def editTimestamp (w : SharedRow) (seconds : Int64) : SharedRow :=
  { w with timestamps := w.timestamps.modify w.row.timestamp fun t => { t with seconds } }

/-- Whether a field and its status are there to be removed from fresh copies of the maps; the row
itself loses nothing. -/
def removable (w : SharedRow) (field : String) : Bool × Bool :=
  (w.row.fields.contains field, w.row.statuses.contains field)

/-! ## Runs -/

/-- One thing done to a row. -/
inductive Step where
  | set (field : String) (v status : Native)
  | setTimestamp (v : Native)
  | copy (source target : String)
  | keep
  | editField (field text : String)
  | editTimestamp (seconds : Int64)
  | remove (field : String)

/-- How a step ends. -/
inductive StepResult where
  | done
  | found (b : Bool)
  | removed (field status : Bool)
  | rowFault (why : RowFault)
  | momentFault (why : MomentFault)
  deriving DecidableEq, Repr

/-- A step's result, from an outcome. -/
def StepResult.ofRow : Except RowFault Unit → StepResult
  | .ok () => .done
  | .error why => .rowFault why

/-- A step's result, from an outcome. -/
def StepResult.ofMoment : Except MomentFault Unit → StepResult
  | .ok () => .done
  | .error why => .momentFault why

def step (w : SharedRow) : Step → SharedRow × StepResult
  | .set field v status => (w.set field v status).map id .ofRow
  | .setTimestamp v => (w.setTimestamp v).map id .ofMoment
  | .copy source target => (w.copy source target).map id .found
  | .keep => (w.keep, .done)
  | .editField field text => (w.editField field text).map id .found
  | .editTimestamp seconds => (w.editTimestamp seconds, .done)
  | .remove field => (w, .removed (w.removable field).1 (w.removable field).2)

/-- Does steps one after another. -/
def run (w : SharedRow) (steps : List Step) : SharedRow := steps.foldl (fun w s => (w.step s).1) w

end SharedRow

end OnlineFeatures
