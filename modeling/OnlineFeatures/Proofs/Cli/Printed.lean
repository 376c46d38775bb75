import OnlineFeatures.Proofs.Cli.Outcome
import OnlineFeatures.Proofs.Client.Answer
import OnlineFeatures.Proofs.Text.Json

/-!
# What is printed of an answer

When a run asks for features and the answer can be read, it prints the rows of the answer as one
JSON text. If all floats in the rows are finite, the text is in the grammar of JSON and is read as
an array of one object for each row (`Row.tree`), with the names, values and statuses of the row and
with no name twice. With any infinity or NaN in a row, alone or in a list, it is no JSON
(`Program.run_printed`).
-/

namespace OnlineFeatures

open JsonGrammar

/-! ## Values and rows -/

namespace Value

/-- The floats that a value holds, alone or in a list. -/
def floats (v : Value) : List Double :=
  match v.content with
  | some (.double x) => [x]
  | some (.float x) => [x.toDouble]
  | some (.doubleList l) => l.items
  | some (.floatList l) => l.items.map (·.toDouble)
  | _ => []

theorem finite_jsonList_iff {α : Type} {f : α → Json} {l : ListMessage α} :
    (jsonList f l).Finite ↔ ∀ a ∈ l.items, (f a).Finite := by
  constructor
  · intro h a ha
    cases h with
    | array h => exact h _ (List.mem_map_of_mem ha)
  · intro h
    refine .array fun j hj => ?_
    obtain ⟨a, ha, rfl⟩ := List.mem_map.1 hj
    exact h a ha

theorem finite_float_iff {x : Double} : (Json.float x).Finite ↔ x.isFinite = true :=
  ⟨fun h => by cases h; assumption, .float⟩

theorem finite_json_iff (v : Value) : v.json.Finite ↔ ∀ x ∈ v.floats, x.isFinite = true := by
  rw [json, floats]
  cases v.content with
  | none => simp [Json.Finite.null]
  | some c =>
    cases c with
    | null => simp [Json.Finite.null]
    | bytes | text => simp [Json.Finite.text]
    | int32 | int64 => simp [Json.Finite.int]
    | bool => simp [Json.Finite.bool]
    | double | float => simp [finite_float_iff]
    | bytesList | textList => simp [finite_jsonList_iff, Json.Finite.text]
    | int32List | int64List => simp [finite_jsonList_iff, Json.Finite.int]
    | boolList => simp [finite_jsonList_iff, Json.Finite.bool]
    | doubleList | floatList => simp [finite_jsonList_iff, finite_float_iff]

end Value

namespace Row

/-- Whether all floats in the values of a row are finite. -/
def Finite (r : Row) : Prop := ∀ p ∈ r.fields.entries, ∀ x ∈ p.2.floats, x.isFinite = true

/-- What the text of a row is read as: its values and the names of its statuses, each under the
names that the row has them under. -/
def tree (r : Row) : Tree :=
  .object [
    (units "fields", .object (r.fields.entries.map fun p => (units p.1, p.2.json.tree))),
    (units "statuses",
      .object (r.statuses.entries.map fun p => (units p.1, .string (units p.2.name))))]

theorem tree_json (r : Row) : r.json.tree = r.tree := by
  simp [json, tree, Json.tree, Function.comp_def]

theorem finite_json_iff (r : Row) : r.json.Finite ↔ r.Finite := by
  constructor
  · intro h p hp
    rw [← Value.finite_json_iff]
    cases h with
    | object h =>
      cases h _ List.mem_cons_self with
      | object h => exact h _ (List.mem_map_of_mem hp)
  · intro h
    refine .object
      (List.forall_mem_cons.2 ⟨.object ?_, List.forall_mem_cons.2 ⟨.object ?_, by simp⟩⟩)
    · intro m hm
      obtain ⟨p, hp, rfl⟩ := List.mem_map.1 hm
      exact (Value.finite_json_iff p.2).2 (h p hp)
    · intro m hm
      obtain ⟨p, -, rfl⟩ := List.mem_map.1 hm
      exact .text _

end Row

/-- No two members of an object are given the same name, if they come from a map. -/
theorem OrderedMap.nodup_units {α : Type} (m : OrderedMap α) :
    (m.entries.map fun p => units p.1).Nodup := by
  have hnodup := m.nodup.map units_injective
  rwa [List.map_map] at hnodup

namespace Program

/-! ## Printing -/

theorem toList_printed (j : Json) : (printed j).toList = j.chars .lines 0 ++ ['\n'] := by
  rw [printed, Json.render, String.toList_append, String.toList_ofList]
  rfl

theorem finite_rows_iff {rows : List Row} :
    (Json.array (rows.map (·.json))).Finite ↔ ∀ r ∈ rows, r.Finite := by
  constructor
  · intro h r hr
    rw [← Row.finite_json_iff]
    cases h with
    | array h => exact h _ (List.mem_map_of_mem hr)
  · intro h
    refine .array fun j hj => ?_
    obtain ⟨r, hr, rfl⟩ := List.mem_map.1 hj
    exact r.finite_json_iff.2 (h r hr)

/-- Printed rows that are finite are read as an array of what the rows are read as, and only so.
Other rows are no JSON. -/
theorem denotes_printed_iff (rows : List Row) (t : Tree) :
    Denotes (printed (.array (rows.map (·.json)))).toList t ↔
      (∀ r ∈ rows, r.Finite) ∧ t = .array (rows.map (·.tree)) := by
  have htree : (Json.array (rows.map (·.json))).tree = .array (rows.map (·.tree)) := by
    simp [Json.tree, Function.comp_def, Row.tree_json]
  rw [toList_printed, Json.denotes_iff _ _ _ (.cons rfl blank_nil), finite_rows_iff, htree]

/-! ## What a run prints -/

/-- A run that ends with the exit code 0 has made a client and prints what the command comes to. -/
theorem runWith_exit_iff {a : Arguments} {e : Environment} {reply : Reply} {output : String} :
    (runWith a e reply).ending = .exit 0 ∧ (runWith a e reply).output = output ↔
      ∃ c opened, connect a e = .ok (c, opened) ∧
        (ask c e reply a.command).result = .ok output := by
  cases hconnect : connect a e with
  | error why =>
    rw [runWith_of_not_connect hconnect]
    simp [endedEarly]
  | ok made =>
    obtain ⟨c, opened⟩ := made
    obtain ⟨logs, hr⟩ := runWith_of_connect hconnect reply
    rw [hr, runClient]
    cases hresult : (ask c e reply a.command).result with
    | ok text => simp [hresult]
    | error why =>
      simp only
      split <;> simp [hresult]

/-- On an answer that can be read, a request for features comes to the rows of the answer,
printed. -/
theorem ask_get_eq_ok_iff {c : Client} (hopen : c.channel.isOpen = true)
    {e : Environment} {start : Row} (hstart : Row.create e.now = .ok start) {content : Bytes}
    {answer : FeaturesResponse} (hanswer : Message.decode? content = some answer)
    {features entities : List String} {project : Option String} {output : String} :
    (ask c e (.response content) (.get features entities project)).result = .ok output ↔
      Requests e (.get features entities project) .features ∧
        output =
          printed (.array ((answer.fieldValues.map (Client.answeredRow start)).map (·.json))) := by
  cases hrows : Entities.rows e.now entities with
  | error why =>
    rw [ask_of_rows_error hrows]
    constructor
    · rintro ⟨⟩
    · rintro ⟨hrequests, -⟩
      cases hrequests with
      | features h => cases hrows.symm.trans h
  | ok rows =>
    cases hrefs : FeatureReference.ofNatives (.list (features.map .text)) with
    | error why =>
      rw [ask_of_refs_error hrows hrefs]
      constructor
      · rintro ⟨⟩
      · rintro ⟨hrequests, -⟩
        cases hrequests with
        | features _ h => cases hrefs.symm.trans h
    | ok refs =>
      have hrequests : Requests e (.get features entities project) .features :=
        .features hrows hrefs
      rw [ask_of_request hrows hrefs, CallRun.andThen,
        Client.featuresOf_result hopen hstart hanswer]
      simp [Except.bind, hrequests, eq_comm]

theorem Client.entries_answeredRow {now : Double} {start : Row}
    (hstart : Row.create now = .ok start) (v : FieldValues) :
    (Client.answeredRow start v).fields.entries = v.fields.entries ∧
      (Client.answeredRow start v).statuses.entries =
        v.fields.entries.map fun p => (p.1, Client.answeredStatus v.statuses p.1) := by
  rw [← Row.emptyAt_of_create hstart, Client.answeredRow_eq]
  exact ⟨Client.entries_fields_answeredRowIn _ v.fields.nodup_keys,
    Client.entries_statuses_answeredRowIn _ v.fields.nodup_keys⟩

/-- What a consumer can take a text for that a run prints for rows: one JSON array of an object for
each row, in order, if no float in the rows is an infinity or a NaN, and else nothing. -/
def PrintedAs (rows : List Row) (output : String) : Prop :=
  ∀ t, Denotes output.toList t ↔ (∀ r ∈ rows, r.Finite) ∧ t = .array (rows.map (·.tree))

/-- A run that asks for features and gets an answer that can be read prints it, unless it cannot
connect or does not come to asking. What it prints are the rows of the answer, in which each
record's fields stand under their names, with a status for each of them: one JSON array if they are
finite, and else no JSON. -/
theorem run_printed {words : List String} {a : Arguments} (hread : Arguments.read words = .ok a)
    {features entities : List String} {project : Option String}
    (hget : a.command = .get features entities project) {e : Environment} {start : Row}
    (hstart : Row.create e.now = .ok start) {content : Bytes} {answer : FeaturesResponse}
    (hanswer : Message.decode? content = some answer) :
    ∃ r, run words e (.response content) = .ok r ∧
      (r.ending = .exit 0 ↔ Connects e ∧ Requests e a.command .features) ∧
      (r.ending = .exit 0 →
        PrintedAs (answer.fieldValues.map (Client.answeredRow start)) r.output) ∧
      ∀ v ∈ answer.fieldValues, let row := Client.answeredRow start v
        row.fields.entries = v.fields.entries ∧
        row.statuses.entries =
          v.fields.entries.map (fun p => (p.1, Client.answeredStatus v.statuses p.1)) ∧
        (row.fields.entries.map fun p => units p.1).Nodup ∧
        (row.statuses.entries.map fun p => units p.1).Nodup := by
  have hexit := @runWith_exit_iff a e (.response content)
  have hask {c : Client} {opened : List LogEntry} (hconnect : connect a e = .ok (c, opened))
      (output : String) :=
    @ask_get_eq_ok_iff c (by simp [Channel.isOpen, (of_connect_ok hconnect).2]) e start hstart
      content answer hanswer
      features entities project output
  rw [← hget] at hask
  refine ⟨runWith a e (.response content), by rw [run, hread]; rfl, ⟨fun h => ?_, ?_⟩, fun h => ?_,
    fun v _ => ?_⟩
  · obtain ⟨c, opened, hconnect, hresult⟩ := hexit.1 ⟨h, rfl⟩
    exact ⟨(of_connect_ok hconnect).1, ((hask hconnect _).1 hresult).1⟩
  · rintro ⟨hconnects, hrequests⟩
    cases hconnect : connect a e with
    | error why => exact absurd hconnects (of_connect_error hconnect)
    | ok made => exact (hexit.2 ⟨made.1, made.2, hconnect, (hask hconnect _).2 ⟨hrequests, rfl⟩⟩).1
  · obtain ⟨c, opened, hconnect, hresult⟩ := hexit.1 ⟨h, rfl⟩
    rw [((hask hconnect _).1 hresult).2]
    exact denotes_printed_iff _
  · obtain ⟨hfields, hstatuses⟩ := Client.entries_answeredRow hstart v
    exact ⟨hfields, hstatuses, OrderedMap.nodup_units _, OrderedMap.nodup_units _⟩

/-- An answer of one row, with a list of floats under a name that is escaped. -/
theorem run_printed_escaped :
    let words := ["get", "-f", "driver:rating", "-e", "driver_id=1001"]
    let e : Environment := ⟨.empty, [], ⟨0x3ff0000000000000⟩⟩
    let content : Bytes :=
      [0x0a, 0x15, 0x0a, 0x13, 0x0a, 0x03, 0x61, 0x22, 0x62, 0x12, 0x0c, 0x7a, 0x0a, 0x0a, 0x08,
        0, 0, 0, 0, 0, 0, 0xf8, 0x3f]
    ∃ r, run words e (.response content) = .ok r ∧ ∀ t, Denotes r.output.toList t ↔
      t = .array [.object [
      (units "fields", .object [(units "a\"b", .array [.number "1.5".toList])]),
      (units "statuses", .object [(units "a\"b", .string (units "PRESENT"))])]] := by
  intro words e content
  have hread : Arguments.read words =
      .ok ⟨none, none, false, .get ["driver:rating"] ["driver_id=1001"] none⟩ := by
    decide +kernel
  have hconnects : Connects e := ⟨.default, by rfl, by rintro path ⟨⟨⟩, -⟩⟩
  have hstart : Row.create e.now = .ok (Row.emptyAt ⟨1, 0, []⟩) := by decide +kernel
  have hanswer : (Message.decode? content : Option FeaturesResponse) =
      some ⟨[⟨⟨[("a\"b", ⟨some (.doubleList ⟨[⟨0x3ff8000000000000⟩], []⟩), []⟩)], by simp⟩, .empty,
        []⟩], []⟩ := by
    decide +kernel
  have hrows : Entities.rows e.now ["driver_id=1001"] =
      .ok [⟨⟨[("driver_id", ⟨some (.int32 1001), []⟩)], by decide⟩, .empty, ⟨1, 0, []⟩⟩] := by
    decide +kernel
  have hrefs : FeatureReference.ofNatives (.list (["driver:rating"].map .text)) =
      .ok [⟨"rating", some "driver"⟩] := by
    decide +kernel
  obtain ⟨r, hrun, hexit, hprinted, hentries⟩ := run_printed hread rfl hstart hanswer
  obtain ⟨hfields, hstatuses, -⟩ := hentries _ (List.mem_singleton_self _)
  have hfinite : (Double.mk 0x3ff8000000000000).isFinite = true := by decide
  have hchars : (Double.mk 0x3ff8000000000000).chars .json = "1.5".toList := by decide +kernel
  have hpresent : (Client.answeredStatus .empty "a\"b").name = "PRESENT" := by decide
  refine ⟨r, hrun, fun t => ?_⟩
  rw [hprinted (hexit.2 ⟨hconnects, .features hrows hrefs⟩)]
  simp only [List.map_cons, List.map_nil, List.forall_mem_singleton, Row.Finite, Row.tree,
    hfields, hstatuses]
  simp [Value.json, Value.jsonList, Json.tree, Value.floats, hfinite, hchars, hpresent]

/-- An answer with a double that is NaN is printed, and the text is no JSON. -/
theorem run_nan :
    let words := ["get", "-f", "driver:rating", "-e", "driver_id=1001"]
    let e : Environment := ⟨.empty, [], ⟨0x3ff0000000000000⟩⟩
    let content : Bytes :=
      [0x0a, 0x10, 0x0a, 0x0e, 0x0a, 0x01, 0x66, 0x12, 0x09, 0x29, 0, 0, 0, 0, 0, 0, 0xf8, 0x7f]
    (Message.decode? content : Option FeaturesResponse).isSome = true ∧
      ∃ r, run words e (.response content) = .ok r ∧ r.ending = .exit 0 ∧
        r.output = "[\n  \x7b\n    \"fields\": \x7b\n      \"f\": NaN\n    \x7d,\n" ++
          "    \"statuses\": \x7b\n      \"f\": \"PRESENT\"\n    \x7d\n  \x7d\n]\n" ∧
        ∀ t, ¬ Denotes r.output.toList t := by
  intro words e content
  have hread : Arguments.read words =
      .ok ⟨none, none, false, .get ["driver:rating"] ["driver_id=1001"] none⟩ := by
    decide +kernel
  refine ⟨by decide +kernel,
    _, by rw [run, hread]; rfl, by decide +kernel, by decide +kernel, fun t => ?_⟩
  exact Refused.not_denotes (by decide +kernel) t

end Program

end OnlineFeatures
