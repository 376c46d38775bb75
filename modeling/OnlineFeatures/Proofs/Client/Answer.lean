import OnlineFeatures.Proofs.Client.Request
import OnlineFeatures.Proofs.Message.Reading
import OnlineFeatures.Proofs.Row.Equality

/-!
# What an answer says

Each record of an answer becomes one row, and nothing else does (`Client.features_answers`). The row
has the record's fields as they came, each with the status that the record gives for its name. It is
made by setting one field after another, in whatever order the maps are gone through, and the rows
of any two orders are equal.
-/

namespace OnlineFeatures

/-! ## Status numbers -/

namespace FieldStatus

theorem number_ofNumber {n : Int} (hlow : 0 ≤ n) (hhigh : n ≤ 4) :
    ((ofNumber n).number : Int) = n := by
  obtain rfl | rfl | rfl | rfl | rfl : n = 0 ∨ n = 1 ∨ n = 2 ∨ n = 3 ∨ n = 4 := by omega
  all_goals rfl

theorem ofNumber_of_unknown {n : Int} (h : n < 0 ∨ 4 < n) : ofNumber n = invalid := by
  have hnone : ofNumber? n = none := by
    refine List.find?_eq_none.2 fun s _ hs => ?_
    have hn : (s.number : Int) = n := by simpa using hs
    cases s <;> simp [number] at hn <;> omega
  rw [ofNumber, hnone, Option.getD_none]

end FieldStatus

namespace Client

/-! ## The row of a record -/

/-- The status of a field of a name. -/
def answeredStatus (statuses : FieldMap Int32) (name : String) : FieldStatus :=
  match statuses.find? name with
  | some n => .ofNumber n.toInt
  | none => .present

/-- The row of a record whose fields are gone through in some order. -/
def answeredRowIn (start : Row) (v : FieldValues) (order : List (String × Value)) : Row :=
  order.foldl
    (fun r (name, value) => r.store name value (some (answeredStatus v.statuses name))) start

theorem answeredRow_eq (start : Row) (v : FieldValues) :
    answeredRow start v = answeredRowIn start v v.fields.entries := rfl

theorem answeredRowIn_eq (start : Row) (v : FieldValues) (order : List (String × Value)) :
    answeredRowIn start v order =
      ⟨order.foldl (fun m p => m.set p.1 p.2) start.fields,
        order.foldl (fun m p => m.set p.1 (answeredStatus v.statuses p.1)) start.statuses,
        start.timestamp⟩ := by
  induction order generalizing start with
  | nil => rfl
  | cons p order ih => exact ih _

section Entries

variable {v : FieldValues} {order : List (String × Value)} (t : Timestamp)
  (hnodup : (order.map (·.1)).Nodup)

include hnodup

theorem entries_fields_answeredRowIn :
    (answeredRowIn (Row.emptyAt t) v order).fields.entries = order := by
  rw [answeredRowIn_eq]
  refine (OrderedMap.entries_foldl_set (·.2) hnodup fun p _ => List.not_mem_nil).trans ?_
  simp [Row.emptyAt, OrderedMap.empty]

theorem entries_statuses_answeredRowIn :
    (answeredRowIn (Row.emptyAt t) v order).statuses.entries =
      order.map fun p => (p.1, answeredStatus v.statuses p.1) := by
  rw [answeredRowIn_eq]
  exact OrderedMap.entries_foldl_set (fun p => answeredStatus v.statuses p.1) hnodup
    fun p _ => List.not_mem_nil

end Entries

theorem lookup_map_keys {α β : Type} (f : String → β) (k : String) (l : List (String × α)) :
    (l.map fun p => (p.1, f p.1)).lookup k = (l.lookup k).map fun _ => f k := by
  induction l with
  | nil => rfl
  | cons p l ih =>
    obtain ⟨key, a⟩ := p
    rw [List.map_cons, lookup_cons_ite, lookup_cons_ite, ih]
    by_cases hk : k = key
    · simp [hk]
    · simp [hk]

section Lookups

variable {v : FieldValues} {order : List (String × Value)} (t : Timestamp)
  (horder : order.Perm v.fields.entries)

include horder

theorem nodup_of_perm : (order.map (·.1)).Nodup :=
  (horder.map _).nodup_iff.2 v.fields.nodup_keys

theorem find?_fields_answeredRowIn (name : String) :
    (answeredRowIn (Row.emptyAt t) v order).fields.find? name = v.fields.find? name := by
  have hnodup := nodup_of_perm horder
  rw [OrderedMap.find?, entries_fields_answeredRowIn t hnodup]
  exact lookup_perm horder hnodup name

theorem find?_statuses_answeredRowIn (name : String) :
    (answeredRowIn (Row.emptyAt t) v order).statuses.find? name =
      (v.fields.find? name).map fun _ => answeredStatus v.statuses name := by
  have hnodup := nodup_of_perm horder
  rw [OrderedMap.find?, entries_statuses_answeredRowIn t hnodup,
    lookup_map_keys (answeredStatus v.statuses), lookup_perm horder hnodup]
  rfl

end Lookups

/-- The rows that a record gives are equal for all orders of its fields. -/
theorem agree_answeredRowIn {v : FieldValues} {order order' : List (String × Value)} (t : Timestamp)
    (horder : order.Perm v.fields.entries) (horder' : order'.Perm v.fields.entries) :
    (answeredRowIn (Row.emptyAt t) v order).agree (answeredRowIn (Row.emptyAt t) v order') =
      true := by
  refine Row.agree_iff.2 ⟨fun name => ?_, fun name => ?_⟩
  · rw [find?_fields_answeredRowIn t horder, find?_fields_answeredRowIn t horder']
  · rw [find?_statuses_answeredRowIn t horder, find?_statuses_answeredRowIn t horder']

/-! ## Setting one field after another -/

theorem toStatus_int (n : Int) : (Native.int n).toStatus = .ok (.ofNumber n) := by
  simp only [Native.toStatus, Native.equalNumber?, Native.count?, Native.integer?, Option.bind_some,
    FieldStatus.ofNumber]
  cases FieldStatus.ofNumber? n <;> rfl

/-- The status argument for a field of a name: the number that came, or the present status
itself. -/
def statusArgument (statuses : FieldMap Int32) (name : String) : Native :=
  match statuses.find? name with
  | some n => .int n.toInt
  | none => .status .present

theorem givenStatus_statusArgument (statuses : FieldMap Int32) (name : String) :
    Row.givenStatus (statusArgument statuses name) = .ok (some (answeredStatus statuses name)) := by
  rw [statusArgument, answeredStatus]
  cases statuses.find? name with
  | none => rfl
  | some n =>
    show (Native.int n.toInt).toStatus.map some = _
    rw [toStatus_int]
    rfl

/-- A row is made of a record by setting its fields. -/
theorem answeredRowIn_eq_set (start : Row) (v : FieldValues) (order : List (String × Value)) :
    answeredRowIn start v order = order.foldl (fun r (name, value) =>
      (r.set name (.value value) (statusArgument v.statuses name)).1) start := by
  induction order generalizing start with
  | nil => rfl
  | cons p order ih =>
    obtain ⟨name, value⟩ := p
    have hset : start.set name (.value value) (statusArgument v.statuses name) =
        (start.store name value (some (answeredStatus v.statuses name)), .ok ()) := by
      simp only [Row.set, Native.infer, givenStatus_statusArgument]
    simp only [List.foldl_cons, hset]
    exact ih _

theorem reachable_answeredRowIn {start : Row} (hstart : start.Reachable) (v : FieldValues)
    {order : List (String × Value)} (horder : ∀ p ∈ order, Message.Valid p.2) :
    (answeredRowIn start v order).Reachable := by
  rw [answeredRowIn_eq_set]
  induction order generalizing start with
  | nil => exact hstart
  | cons p order ih =>
    obtain ⟨name, value⟩ := p
    obtain ⟨hvalue, horder⟩ := List.forall_mem_cons.1 horder
    exact ih (hstart.step (s := .set name (.value value) (statusArgument v.statuses name)) hvalue)
      horder

/-- The row of a record that was read is reachable. -/
theorem reachable_answeredRow {now : Double} {start : Row} (hstart : Row.create now = .ok start)
    {content : Bytes} {v : FieldValues} (hv : Message.decode? content = some v) :
    (answeredRow start v).Reachable :=
  reachable_answeredRowIn (.created hstart) v (Message.valid_of_decode? hv).parts

/-! ## The rows of an answer -/

theorem answeredRows_eq {now : Double} {start : Row} (hstart : Row.create now = .ok start)
    (answer : FeaturesResponse) :
    answeredRows now answer = .ok (answer.fieldValues.map (answeredRow start)) := by
  rw [answeredRows, hstart]
  exact List.mapM_pure ..

theorem featuresOf_result {c : Client} (hopen : c.channel.isOpen = true)
    {now : Double} {start : Row} (hstart : Row.create now = .ok start) {content : Bytes}
    {answer : FeaturesResponse} (hanswer : Message.decode? content = some answer)
    (refs : List FeatureReference) (rows : List Row) (project : Option String) :
    (c.featuresOf now refs rows project (.response content)).result =
      .ok (answer.fieldValues.map (answeredRow start)) := by
  show ((c.call .features _ (Message.decode? : Bytes → Option FeaturesResponse)
    (.response content)).result.bind (answeredRows now)) = _
  rw [call, if_pos hopen]
  simp only [readReply, hanswer, Option.elim_some]
  exact answeredRows_eq hstart answer

/-- A readable answer becomes one row for each of its records, in order, whatever rows were asked
for.

A row has the fields of its record: under each name the value of the last entry of that name, as it
came. It has a status for these and for no other names, which is the one of the number that the
record gives for the name, the invalid one when that number has none, and the present one when the
record gives none. In whatever order the fields of a record are gone through, the row is equal. -/
theorem features_answers {c : Client} {refs : Native} {parsed : List FeatureReference}
    {now : Double} {start : Row} {content : Bytes} {answer : FeaturesResponse}
    (hrefs : FeatureReference.ofNatives refs = .ok parsed) (hopen : c.channel.isOpen = true)
    (hstart : Row.create now = .ok start) (hanswer : Message.decode? content = some answer)
    (rows : List Row) (project : Option String) :
    ∃ answered records,
      (c.features now refs rows project (.response content)).result = .ok answered ∧
      Record.readAll? content = some records ∧
      answered.length = (Record.contentsOf 1 records).length ∧
      (∀ (i : Nat) (r : Row) (inner : Bytes), answered[i]? = some r →
        (Record.contentsOf 1 records)[i]? = some inner →
        ∃ v : FieldValues, ∃ own, Message.decode? inner = some v ∧ answer.fieldValues[i]? = some v ∧
          Record.readAll? inner = some own ∧
          (∀ name, v.fields.find? name = (FieldMap.entriesOf 1 own).reverse.lookup name) ∧
          (∀ name, v.statuses.find? name = (FieldMap.entriesOf 2 own).reverse.lookup name) ∧
          (∀ name, r.fields.find? name = v.fields.find? name) ∧
          (∀ name, v.fields.find? name = none → r.statuses.find? name = none) ∧
          (∀ name value, v.fields.find? name = some value →
            ∃ status, r.statuses.find? name = some status ∧
              (v.statuses.find? name = none → status = .present) ∧
              ∀ n, v.statuses.find? name = some n →
                (0 ≤ n.toInt ∧ n.toInt ≤ 4 → (status.number : Int) = n.toInt) ∧
                (n.toInt < 0 ∨ 4 < n.toInt → status = .invalid)) ∧
          ∀ order, order.Perm v.fields.entries →
            (answeredRowIn start v order).agree r = true ∧
              r.agree (answeredRowIn start v order) = true) ∧
      ∀ entry key, ∀ value : Value, FieldMap.readEntry? 1 entry = some (.inl (key, value)) →
        ∃ own, Record.readAll? entry = some own ∧ ((∀ r ∈ own, r.field.number ≠ 1) → key = "") ∧
          ((∀ r ∈ own, r.field.number ≠ 2) → value = .unset) := by
  obtain ⟨records, hrecords, hread⟩ := FeaturesResponse.fieldValues_of_decode? hanswer
  refine ⟨answer.fieldValues.map (answeredRow start), records, ?_, hrecords, ?_, ?_, ?_⟩
  · rw [features_eq hrefs]
    exact featuresOf_result hopen hstart hanswer parsed rows project
  · have hlength := congrArg List.length hread
    simpa using hlength.symm
  · intro i r inner hr hinner
    obtain ⟨v, hv, rfl⟩ : ∃ v, answer.fieldValues[i]? = some v ∧ answeredRow start v = r := by
      simpa [List.getElem?_map, Option.map_eq_some_iff] using hr
    have hdecode : Message.decode? inner = some v := by
      have hi := congrArg (·[i]?) hread
      simp only [List.getElem?_map, hinner, hv, Option.map_some] at hi
      exact Option.some.inj hi
    -- from here on only this record counts: the row is made of its two maps and a fresh start
    obtain ⟨own, hown, hfields, hstatuses⟩ := FieldValues.maps_of_decode? hdecode
    have ht : start = Row.emptyAt start.timestamp := (Row.emptyAt_of_create hstart).symm
    have hfield := find?_fields_answeredRowIn start.timestamp (.refl v.fields.entries)
    have hstatus := find?_statuses_answeredRowIn start.timestamp (.refl v.fields.entries)
    rw [← ht, ← answeredRow_eq] at hfield hstatus
    refine ⟨v, own, hdecode, hv, hown, ?_, ?_, hfield, ?_, ?_, ?_⟩
    · intro name
      rw [hfields, FieldMap.find?_ofList]
    · intro name
      rw [hstatuses, FieldMap.find?_ofList]
    · intro name hnone
      rw [hstatus, hnone]
      rfl
    · intro name value hvalue
      refine ⟨answeredStatus v.statuses name, by rw [hstatus, hvalue]; rfl, ?_, ?_⟩
      · intro hnone
        rw [answeredStatus, hnone]
      · intro n hn
        rw [answeredStatus, hn]
        exact ⟨fun h => FieldStatus.number_ofNumber h.1 h.2, FieldStatus.ofNumber_of_unknown⟩
    · intro order horder
      rw [answeredRow_eq, ht]
      exact ⟨agree_answeredRowIn _ horder (.refl _), agree_answeredRowIn _ (.refl _) horder⟩
  · intro entry key value hentry
    exact FieldMap.readEntry?_defaults hentry

/-- An answer of two records to a request for no rows: one that gives a field twice, with a status
number that is not known and a status for a name without a field, and one whose only entry is
empty. -/
theorem features_answers_two_rows :
    let c := onChannel ⟨"localhost:6566", .plaintext, 0⟩ none ""
    let content :=
      [0x0a, 0x20, 0x0a, 0x07, 0x0a, 0x01, 0x61, 0x12, 0x02, 0x18, 0x01, 0x0a, 0x07, 0x0a,
      0x01, 0x61, 0x12, 0x02, 0x18, 0x02, 0x12, 0x05, 0x0a, 0x01, 0x61, 0x10, 0x07,
        0x12, 0x05, 0x0a,
      0x01, 0x7a, 0x10, 0x01, 0x0a, 0x02, 0x0a, 0x00]
    Message.decode? content = some (⟨[⟨.ofList [("a", ⟨some (.int32 2), []⟩)],
      .ofList [("a", 7), ("z", 1)], []⟩, ⟨.ofList [("", .unset)], .empty, []⟩], []⟩ :
      FeaturesResponse) ∧
    ∃ answered, (c.features ⟨0x3ff0000000000000⟩ (.list [.text "driver:rating"]) [] none
      (.response content)).result = .ok answered ∧ answered.length = 2 := by
  intro c content
  have hanswer : Message.decode? content = some (⟨[⟨.ofList [("a", ⟨some (.int32 2), []⟩)],
      .ofList [("a", 7), ("z", 1)], []⟩, ⟨.ofList [("", .unset)], .empty, []⟩], []⟩ :
      FeaturesResponse) := by decide +kernel
  have hrefs : FeatureReference.ofNatives (.list [.text "driver:rating"]) =
      .ok [⟨"rating", some "driver"⟩] := by rfl
  have hstart : Row.create ⟨0x3ff0000000000000⟩ = .ok (Row.emptyAt (.ofSeconds 1)) := by rfl
  obtain ⟨answered, records, hresult, hrecords, hlength, -⟩ :=
    features_answers hrefs (c := c) rfl hstart hanswer [] none
  have htwo :
      (Record.readAll? content).map (fun rs => (Record.contentsOf 1 rs).length) = some 2 := by
    decide +kernel
  rw [hrecords, Option.map_some, ← hlength] at htwo
  exact ⟨hanswer, answered, hresult, Option.some.inj htwo⟩

end Client

end OnlineFeatures
