import OnlineFeatures.Client.Session
import OnlineFeatures.Rpc.Server
import OnlineFeatures.Proofs.Message.EntryOrder
import OnlineFeatures.Proofs.Row.Reachable

/-!
# What a request says

A call for features goes out once, to one path, and the server that is found there reads from it
what the caller gave (`Client.features_sends`): the references in order, for each row its point in
time and its fields, and the project. The statuses of rows stay behind.

All of it comes down to the round trip of requests, since a request is made of valid parts whenever
its rows are reachable. It holds in whatever order the fields of a row are written.
-/

namespace OnlineFeatures

namespace Client

/-! ## The request -/

theorem valid_entityRow {r : Row} (h : r.Valid) : Message.Valid (entityRow r) := by
  refine ⟨⟨fun t ht => ?_, FieldMap.valid_ofList h.fields⟩, by rintro _ ⟨⟩⟩
  obtain rfl := Option.some.inj ht
  exact h.timestamp

theorem valid_message (ref : FeatureReference) : Message.Valid ref.message :=
  ⟨trivial, by rintro _ ⟨⟩⟩

theorem valid_request (c : Client) (refs : List FeatureReference) {rows : List Row}
    (hrows : ∀ r ∈ rows, r.Valid) (project : Option String) :
    Message.Valid (c.request refs rows project) := by
  refine ⟨⟨fun e he => ?_, fun f hf => ?_⟩, by rintro _ ⟨⟩⟩
  · obtain ⟨r, hr, rfl⟩ := List.mem_map.1 he
    exact valid_entityRow (hrows r hr)
  · obtain ⟨ref, -, rfl⟩ := List.mem_map.1 hf
    exact valid_message ref

theorem decode?_of_spelled_request (c : Client) (refs : List FeatureReference) {rows : List Row}
    (hrows : ∀ r ∈ rows, r.Reachable) (project : Option String)
    (hlimit : Message.WithinLimit (c.request refs rows project)) {bytes : Bytes}
    (h : (c.request refs rows project).Spelled bytes) :
    Message.decode? bytes = some (c.request refs rows project) :=
  FeaturesRequest.decode?_of_spelled (valid_request c refs (fun r hr => (hrows r hr).valid) project)
    hlimit h

theorem table_message (ref : FeatureReference) : ref.message.table = ref.table.getD "" := by
  cases h : ref.table with
  | none => simp [FeatureReference.message, FeatureReference.table?, h]
  | some table =>
    by_cases hblank : table = ""
    · simp [FeatureReference.message, FeatureReference.table?, h, hblank, Option.filter]
    · simp [FeatureReference.message, FeatureReference.table?, h, hblank, Option.filter]

/-- Rows that differ in their statuses alone make the same request. -/
theorem request_congr (c : Client) (refs : List FeatureReference) {rows rows' : List Row}
    (h : rows'.map (fun r => (r.fields, r.timestamp)) = rows.map fun r => (r.fields, r.timestamp))
    (project : Option String) : c.request refs rows' project = c.request refs rows project := by
  have hentity : ∀ rows : List Row, rows.map entityRow =
      (rows.map fun r => (r.fields, r.timestamp)).map fun (fields, t) =>
        (⟨some t, .ofList fields.entries, []⟩ : EntityRow) := by
    intro rows
    rw [List.map_map]
    rfl
  rw [request, request, hentity rows', h, ← hentity rows]

/-! ## Sending -/

theorem call_sent {α : Type} (c : Client) (method : RpcMethod) (request : Bytes)
    (decode? : Bytes → Option α) (reply : Reply) : (c.call method request decode? reply).sent =
      if c.channel.isOpen then [⟨method, c.metadata, request⟩] else [] := by
  rw [call]
  split
  · simp only
    split <;> rfl
  · rfl

theorem call_observed {α : Type} (c : Client) (method : RpcMethod) (request : Bytes)
    (decode? : Bytes → Option α) (reply : Reply) :
    (c.call method request decode? reply).observed.map (·.method) = [method] := by
  rw [call]
  split
  · simp only
    split <;> rfl
  · rfl

theorem featuresOf_sent (c : Client) (now : Double) (refs : List FeatureReference)
    (rows : List Row) (project : Option String) (reply : Reply) :
    (c.featuresOf now refs rows project reply).sent =
      if c.channel.isOpen then
        [⟨.features, c.metadata, Message.encode (c.request refs rows project)⟩]
      else [] :=
  call_sent c .features _ (Message.decode? : Bytes → Option FeaturesResponse) reply

theorem featuresOf_observed (c : Client) (now : Double) (refs : List FeatureReference)
    (rows : List Row) (project : Option String) (reply : Reply) :
    (c.featuresOf now refs rows project reply).observed.map (·.method) = [.features] :=
  call_observed c .features (Message.encode (c.request refs rows project))
    (Message.decode? : Bytes → Option FeaturesResponse) reply

theorem features_eq {c : Client} {refs : Native} {parsed : List FeatureReference}
    (hrefs : FeatureReference.ofNatives refs = .ok parsed) (now : Double) (rows : List Row)
    (project : Option String) (reply : Reply) :
    c.features now refs rows project reply = c.featuresOf now parsed rows project reply := by
  rw [features, hrefs]

/-- A call for features of reachable rows goes out once, as bytes from which the server that is
found under its path reads the references, the rows and the project that the caller gave, however
the call ends. It reads the same from the bytes in which the fields of the rows stand in another
order. The length of the request is that of any message on the wire. -/
theorem features_sends {c : Client} {refs : Native} {parsed : List FeatureReference}
    {rows : List Row} {project : Option String}
    (hrefs : FeatureReference.ofNatives refs = .ok parsed) (hrows : ∀ r ∈ rows, r.Reachable)
    (hlimit : Message.WithinLimit (c.request parsed rows project)) (now : Double) (reply : Reply) :
    let run := c.features now refs rows project reply
    let path := "/feast.serving.ServingService/GetOnlineFeaturesV2"
    run.observed.map (·.method) = [.features] ∧ RpcMethod.features.path = path ∧
    ∃ bytes, ∃ request : FeaturesRequest,
      run.sent = (if c.channel.isOpen then [⟨.features, c.metadata, bytes⟩] else []) ∧
      request.Spelled bytes ∧
      (∀ spelled, request.Spelled spelled → Message.decode? spelled = some request ∧
        ∀ content, ∀ answer : FeaturesResponse, Message.decode? content = some answer →
          (Servicer.returning content).dispatch path spelled =
            some ⟨.ok (Listable.list request, Message.encode answer), none⟩) ∧
      request.features.map (fun f => (f.table, f.name)) =
        parsed.map (fun ref => (ref.table.getD "", ref.name)) ∧
      request.entityRows.length = rows.length ∧
      (∀ i : Nat, ∀ e : EntityRow, ∀ r : Row, request.entityRows[i]? = some e → rows[i]? = some r →
        e.timestamp = some r.timestamp ∧ ∀ field, e.fields.find? field = r.fields.find? field) ∧
      (∀ override, project = some override → request.project = override) ∧
      (project = none → request.project = c.project) ∧
      ∀ rows', rows'.map (fun r => (r.fields, r.timestamp)) =
          rows.map (fun r => (r.fields, r.timestamp)) →
        (c.features now refs rows' project reply).sent = run.sent := by
  intro run path
  have hread {spelled : Bytes} (h : (c.request parsed rows project).Spelled spelled) :=
    decode?_of_spelled_request c parsed hrows project hlimit h
  have hsent (rows : List Row) : (c.features now refs rows project reply).sent =
      if c.channel.isOpen then
        [⟨.features, c.metadata, Message.encode (c.request parsed rows project)⟩]
      else [] := by
    rw [features_eq hrefs, featuresOf_sent]
  refine ⟨?_, rfl, _, c.request parsed rows project, hsent rows,
    FeaturesRequest.spelled_encode _, ?_, ?_, ?_, ?_, ?_, ?_, ?_⟩
  · show (c.features now refs rows project reply).observed.map _ = _
    rw [features_eq hrefs, featuresOf_observed]
  · intro spelled hspelled
    refine ⟨hread hspelled, fun content answer hanswer => ?_⟩
    show some ((Servicer.returning content).handle FeaturesRequest FeaturesResponse _) = _
    rw [Servicer.handle, hread hspelled]
    simp only [hanswer]
  · show (parsed.map (·.message)).map _ = _
    rw [List.map_map]
    exact List.map_congr_left fun ref _ => congrArg (·, ref.name) (table_message ref)
  · exact List.length_map _
  · intro i e r he hr
    have hentity : (rows.map entityRow)[i]? = some (entityRow r) := by
      rw [List.getElem?_map, hr]
      rfl
    obtain rfl := Option.some.inj (hentity.symm.trans he)
    exact ⟨rfl, OrderedMap.find?_ofList_entries r.fields⟩
  · rintro override rfl
    rfl
  · rintro rfl
    rfl
  · intro rows' hsame
    show _ = (c.features now refs rows project reply).sent
    rw [hsent, hsent, request_congr c parsed hsame]

/-- A request of two references for a row with a zero, a value of no member and a status, and with a
blank override of the project. -/
theorem features_sends_row :
    let c := onChannel ⟨"localhost:6566", .plaintext, 0⟩ (some ⟨"token"⟩) "project"
    let row := (((Row.emptyAt (.ofSeconds 1)).step (.set "driver_id" (.int 0) .none)).1.step
      (.set "city" (.value .unset) (.status .present))).1
    ∃ bytes, ∃ request : FeaturesRequest,
      (c.features ⟨0⟩ (.list [.text "driver:rating", .text ":trips"]) [row] (some "")
        (.response [])).sent = [⟨.features, [("authorization", "Bearer token")], bytes⟩] ∧
      Message.decode? bytes = some request ∧ request.project = "" ∧
      request.features.map (fun f => (f.table, f.name)) = [("driver", "rating"), ("", "trips")] ∧
      request.entityRows.length = 1 := by
  intro c row
  have hcreate : Row.create ⟨0x3ff0000000000000⟩ = .ok (Row.emptyAt (.ofSeconds 1)) := by rfl
  have hfirst := (Row.Reachable.created hcreate).step (s := .set "driver_id" (.int 0) .none) trivial
  have hrow : row.Reachable :=
    hfirst.step (s := .set "city" (.value .unset) (.status .present)) Value.valid_unset
  have hrefs : FeatureReference.ofNatives (.list [.text "driver:rating", .text ":trips"]) =
      .ok [⟨"rating", some "driver"⟩, ⟨"trips", none⟩] := by rfl
  have hlimit : (Message.encode (c.request [⟨"rating", some "driver"⟩, ⟨"trips", none⟩] [row]
      (some ""))).length < Message.sizeLimit := by
    -- the length is the same with the entries as they stand in the row
    have horders : (c.request [⟨"rating", some "driver"⟩, ⟨"trips", none⟩] [row] (some "")).Orders
        [(entityRow row, (entityRow row).fields.entries)] := ⟨rfl, by simp⟩
    rw [← FeaturesRequest.length_encodeIn horders]
    decide +kernel
  obtain ⟨-, -, bytes, request, hsent, hspelled, hread, hfeatures, hlength, -, hproject, -⟩ :=
    features_sends hrefs (by simpa using hrow) hlimit ⟨0⟩ (.response [])
  exact ⟨bytes, request, hsent, (hread bytes hspelled).1, hproject "" rfl, hfeatures, hlength⟩

end Client

end OnlineFeatures
