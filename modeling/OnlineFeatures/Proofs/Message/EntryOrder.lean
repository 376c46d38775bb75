import OnlineFeatures.Proofs.Message.Features

/-!
# Requests with map entries in any order

Serialisation writes the entries of a map in one fixed order, but the wire does not ask for that.
Bytes spell a request when they differ from its serialisation in no more than the order in which the
fields of each entity row stand (`FeaturesRequest.Spelled`). Whoever reads such bytes reads the
request (`FeaturesRequest.decode?_of_spelled`): entries have distinct keys, so their order does not
show in the map, and it does not show in any length either.
-/

namespace OnlineFeatures

open Message (Valid WithinLimit)

theorem Record.length_bytes_congr {number : Nat} {content content' : Bytes}
    (h : content.length = content'.length) :
    (Record.bytes number content).spelling.length =
      (Record.bytes number content').spelling.length := by
  simp only [Record.bytes, List.length_append, h]

/-! ## Entity rows -/

namespace EntityRow

/-- The bytes of an entity row whose fields stand in some order. -/
def encodeIn (m : EntityRow) (order : List (String × Value)) : Bytes :=
  Record.writeAll
    (m.timestamp.toList.map (Message.nested 1) ++ order.map (FieldMap.writeEntry 2) ++ m.unknown)

variable {m : EntityRow} {order : List (String × Value)}

theorem length_encodeIn (horder : order.Perm m.fields.entries) :
    (m.encodeIn order).length = (Message.encode m).length := by
  have hrecords : (order.map (FieldMap.writeEntry 2)).Perm (m.fields.records 2) :=
    (horder.trans (List.mergeSort_perm _ _).symm).map _
  have hall :=
    (hrecords.append_left (m.timestamp.toList.map (Message.nested 1))).append_right m.unknown
  exact (hall.flatMap_right (·.spelling)).length_eq

theorem decode?_encodeIn (hm : Valid m) (horder : order.Perm m.fields.entries)
    (hlimit : WithinLimit m) : Message.decode? (m.encodeIn order) = some m := by
  have hlength : ∀ r ∈ m.timestamp.toList.map (Message.nested 1) ++
      order.map (FieldMap.writeEntry 2) ++ m.unknown, r.spelling.length < Message.sizeLimit := by
    intro r hr
    have hle : r.spelling.length ≤ (m.encodeIn order).length := Message.spelling_length_le hr
    rw [length_encodeIn horder] at hle
    exact Nat.lt_of_le_of_lt hle hlimit
  obtain ⟨hknown, hkept⟩ := List.forall_mem_append.1 hlength
  obtain ⟨htimestamp, hfields⟩ := List.forall_mem_append.1 hknown
  refine Message.decode?_writeAll (m := ⟨m.timestamp, m.fields, []⟩) (fun r hr => ?_) ?_ rfl
    fun r hr => hm.kept r hr (hkept r hr)
  · rcases List.mem_append.1 hr with hr' | hr'
    · exact Message.wellFormed_nested (by decide) hr' (hknown r hr)
    · obtain ⟨entry, -, rfl⟩ := List.mem_map.1 hr'
      exact Message.wellFormed_bytes (by decide) (hknown _ hr)
  · refine Message.foldlM_absorb_append (foldlM_absorb_timestamp hm.parts.timestamp htimestamp) ?_
    rw [← FieldMap.ofList_perm_entries horder]
    exact FieldMap.foldlM_absorb_entries (EntityRow.mk m.timestamp · []) (absorb_entry m.timestamp)
      (fun p hp => hm.parts.fields p (horder.mem_iff.1 hp)) hfields

end EntityRow

/-! ## Requests -/

namespace FeaturesRequest

/-- The bytes of a request in which the fields of each row stand in some order. -/
def encodeIn (m : FeaturesRequest) (orders : List (EntityRow × List (String × Value))) : Bytes :=
  Record.writeAll (orders.map (fun p => .bytes 2 (p.1.encodeIn p.2)) ++
    m.features.map (Message.nested 4) ++ Record.unlessBlank 5 m.project ++ m.unknown)

/-- Whether orders are given for the fields of the rows of a request. -/
structure Orders (m : FeaturesRequest) (orders : List (EntityRow × List (String × Value))) :
    Prop where
  rows : orders.map (·.1) = m.entityRows
  perm : ∀ p ∈ orders, p.2.Perm p.1.fields.entries

/-- Whether bytes are those of a request, but for the order in which the fields of its rows
stand. -/
def Spelled (m : FeaturesRequest) (bytes : Bytes) : Prop :=
  ∃ orders, m.Orders orders ∧ bytes = m.encodeIn orders

/-- The order in which serialisation puts entries is one of them. -/
theorem spelled_encode (m : FeaturesRequest) : m.Spelled (Message.encode m) := by
  let sorted (e : EntityRow) := e.fields.entries.mergeSort fun p q =>
    FieldMap.sentBefore p.1.toList q.1.toList
  refine ⟨m.entityRows.map fun e => (e, sorted e), ⟨?_, ?_⟩, ?_⟩
  · rw [List.map_map]
    exact List.map_id m.entityRows
  · intro p hp
    obtain ⟨e, -, rfl⟩ := List.mem_map.1 hp
    exact List.mergeSort_perm _ _
  · rw [encodeIn, List.map_map]
    rfl

variable {m : FeaturesRequest} {orders : List (EntityRow × List (String × Value))}

theorem length_encodeIn (h : m.Orders orders) :
    (m.encodeIn orders).length = (Message.encode m).length := by
  have hrows : (Record.writeAll (orders.map fun p => .bytes 2 (p.1.encodeIn p.2))).length =
      (Record.writeAll (m.entityRows.map (Message.nested 2))).length := by
    rw [← h.rows, List.map_map, Record.writeAll, Record.writeAll, List.length_flatMap,
      List.length_flatMap, List.map_map, List.map_map]
    refine congrArg List.sum (List.map_congr_left fun p hp => ?_)
    exact Record.length_bytes_congr (EntityRow.length_encodeIn (h.perm p hp))
  simp only [encodeIn, Message.encode, Message.records, Record.writeAll, List.flatMap_append,
    List.length_append] at hrows ⊢
  rw [hrows]

theorem decode?_encodeIn (hm : Valid m) (h : m.Orders orders) (hlimit : WithinLimit m) :
    Message.decode? (m.encodeIn orders) = some m := by
  have hlength : ∀ r ∈ orders.map (fun p => Record.bytes 2 (p.1.encodeIn p.2)) ++
      m.features.map (Message.nested 4) ++ Record.unlessBlank 5 m.project ++ m.unknown,
      r.spelling.length < Message.sizeLimit := by
    intro r hr
    have hle : r.spelling.length ≤ (m.encodeIn orders).length := Message.spelling_length_le hr
    rw [length_encodeIn h] at hle
    exact Nat.lt_of_le_of_lt hle hlimit
  obtain ⟨hknown, hkept⟩ := List.forall_mem_append.1 hlength
  obtain ⟨hnested, -⟩ := List.forall_mem_append.1 hknown
  obtain ⟨hrows, hfeatures⟩ := List.forall_mem_append.1 hnested
  refine Message.decode?_writeAll (m := ⟨m.entityRows, m.features, m.project, []⟩)
    (fun r hr => ?_) ?_ rfl fun r hr => hm.kept r hr (hkept r hr)
  · have hlen := hknown r hr
    simp only [List.mem_append] at hr
    rcases hr with (hr | hr) | hr
    · obtain ⟨p, -, rfl⟩ := List.mem_map.1 hr
      exact Message.wellFormed_bytes (by decide) hlen
    · exact Message.wellFormed_nested (by decide) hr hlen
    · exact Record.wellFormed_unlessBlank (by decide) hr hlen
  · refine foldlM_absorb_rest m.project ?_ hm.parts.features hfeatures
    rw [← h.rows]
    have hput : orders.foldl (fun rows p => rows ++ [p.1]) [] = orders.map (·.1) := by
      simp [← List.flatMap_def, ← List.map_eq_flatMap]
    refine (Message.foldlM_absorb_slot (FeaturesRequest.mk · [] "" [])
      (fun rows p => rows ++ [p.1]) _ (fun rows p hp => ?_) []).trans ?_
    · have he : p.1 ∈ m.entityRows := h.rows ▸ List.mem_map_of_mem hp
      have hnested : (Message.nested 2 p.1).spelling.length < Message.sizeLimit := by
        rw [Message.nested, ← Record.length_bytes_congr (EntityRow.length_encodeIn (h.perm p hp))]
        exact hrows _ (List.mem_map_of_mem hp)
      refine absorb_row (EntityRow.decode?_encodeIn (hm.parts.entityRows p.1 he) (h.perm p hp) ?_)
      exact Nat.lt_of_le_of_lt (Message.length_encode_le_nested 2 p.1) hnested
    · rw [hput]

/-- Bytes that spell a request are read as the request. -/
theorem decode?_of_spelled (hm : Valid m) (hlimit : WithinLimit m) {bytes : Bytes}
    (h : m.Spelled bytes) : Message.decode? bytes = some m := by
  obtain ⟨orders, horders, rfl⟩ := h
  exact decode?_encodeIn hm horders hlimit

end FeaturesRequest

end OnlineFeatures
