import OnlineFeatures.Message.Listing
import OnlineFeatures.Schema
import OnlineFeatures.Proofs.Message.EntryOrder

/-!
# Round trips over the schema

Every message type of the schema is lawful, and so the round trip is one statement over all of them
(`MessageType.round_trip`): what was built from valid parts or read from bytes is given back by its
own serialisation. The entry messages of maps are no types of their own here. On their own they come
back without a value that is the default of its type (`MapEntry.decode?_encode`), and still to the
same bytes (`Message.reader?_idempotent`).
-/

namespace OnlineFeatures

open Message (Valid WithinLimit decode? encode sizeLimit)

/-! ## The message types -/

/-- The message types of the schema, entries of maps apart, and the timestamp that they embed. -/
inductive MessageType where
  | value
  | bytesList
  | textList
  | int32List
  | int64List
  | doubleList
  | floatList
  | boolList
  | infoRequest
  | infoResponse
  | reference
  | featuresRequest
  | entityRow
  | featuresResponse
  | fieldValues
  | timestamp
  deriving DecidableEq, Repr

namespace MessageType

/-- The messages of a type. -/
abbrev Form : MessageType → Type
  | value => Value
  | bytesList => ListMessage Bytes
  | textList => ListMessage String
  | int32List => ListMessage Int32
  | int64List => ListMessage Int64
  | doubleList => ListMessage Double
  | floatList => ListMessage Single
  | boolList => ListMessage Bool
  | infoRequest => InfoRequest
  | infoResponse => InfoResponse
  | reference => ReferenceMessage
  | featuresRequest => FeaturesRequest
  | entityRow => EntityRow
  | featuresResponse => FeaturesResponse
  | fieldValues => FieldValues
  | timestamp => Timestamp

instance : (t : MessageType) → Message t.Form
  | value => inferInstanceAs (Message Value)
  | bytesList => inferInstanceAs (Message (ListMessage Bytes))
  | textList => inferInstanceAs (Message (ListMessage String))
  | int32List => inferInstanceAs (Message (ListMessage Int32))
  | int64List => inferInstanceAs (Message (ListMessage Int64))
  | doubleList => inferInstanceAs (Message (ListMessage Double))
  | floatList => inferInstanceAs (Message (ListMessage Single))
  | boolList => inferInstanceAs (Message (ListMessage Bool))
  | infoRequest => inferInstanceAs (Message InfoRequest)
  | infoResponse => inferInstanceAs (Message InfoResponse)
  | reference => inferInstanceAs (Message ReferenceMessage)
  | featuresRequest => inferInstanceAs (Message FeaturesRequest)
  | entityRow => inferInstanceAs (Message EntityRow)
  | featuresResponse => inferInstanceAs (Message FeaturesResponse)
  | fieldValues => inferInstanceAs (Message FieldValues)
  | timestamp => inferInstanceAs (Message Timestamp)

instance : (t : MessageType) → LawfulMessage t.Form
  | value => inferInstanceAs (LawfulMessage Value)
  | bytesList => inferInstanceAs (LawfulMessage (ListMessage Bytes))
  | textList => inferInstanceAs (LawfulMessage (ListMessage String))
  | int32List => inferInstanceAs (LawfulMessage (ListMessage Int32))
  | int64List => inferInstanceAs (LawfulMessage (ListMessage Int64))
  | doubleList => inferInstanceAs (LawfulMessage (ListMessage Double))
  | floatList => inferInstanceAs (LawfulMessage (ListMessage Single))
  | boolList => inferInstanceAs (LawfulMessage (ListMessage Bool))
  | infoRequest => inferInstanceAs (LawfulMessage InfoRequest)
  | infoResponse => inferInstanceAs (LawfulMessage InfoResponse)
  | reference => inferInstanceAs (LawfulMessage ReferenceMessage)
  | featuresRequest => inferInstanceAs (LawfulMessage FeaturesRequest)
  | entityRow => inferInstanceAs (LawfulMessage EntityRow)
  | featuresResponse => inferInstanceAs (LawfulMessage FeaturesResponse)
  | fieldValues => inferInstanceAs (LawfulMessage FieldValues)
  | timestamp => inferInstanceAs (LawfulMessage Timestamp)

/-- The name of a type in the schema. -/
def name : MessageType → String
  | value => "Value"
  | bytesList => "BytesList"
  | textList => "StringList"
  | int32List => "Int32List"
  | int64List => "Int64List"
  | doubleList => "DoubleList"
  | floatList => "FloatList"
  | boolList => "BoolList"
  | infoRequest => "GetFeastServingInfoRequest"
  | infoResponse => "GetFeastServingInfoResponse"
  | reference => "FeatureReferenceV2"
  | featuresRequest => "GetOnlineFeaturesRequestV2"
  | entityRow => "GetOnlineFeaturesRequestV2.EntityRow"
  | featuresResponse => "GetOnlineFeaturesResponse"
  | fieldValues => "GetOnlineFeaturesResponse.FieldValues"
  | timestamp => "google.protobuf.Timestamp"

/-- No message of the schema is left out but the entries of maps. -/
theorem covers {d : MessageDescription} (h : d ∈ Schema.messages) :
    (∃ t : MessageType, t.name = d.name) ∨ ∃ value, d = Schema.entryMessage d.name value := by
  simp only [Schema.messages, List.mem_cons, List.not_mem_nil, or_false] at h
  rcases h with rfl | rfl | rfl | rfl | rfl | rfl | rfl | rfl | rfl | rfl | rfl | rfl | rfl | rfl |
    rfl | rfl | rfl | rfl
  · exact .inl ⟨value, rfl⟩
  · exact .inl ⟨bytesList, rfl⟩
  · exact .inl ⟨textList, rfl⟩
  · exact .inl ⟨int32List, rfl⟩
  · exact .inl ⟨int64List, rfl⟩
  · exact .inl ⟨doubleList, rfl⟩
  · exact .inl ⟨floatList, rfl⟩
  · exact .inl ⟨boolList, rfl⟩
  · exact .inl ⟨infoRequest, rfl⟩
  · exact .inl ⟨infoResponse, rfl⟩
  · exact .inl ⟨reference, rfl⟩
  · exact .inl ⟨featuresRequest, rfl⟩
  · exact .inl ⟨entityRow, rfl⟩
  · exact .inr ⟨_, rfl⟩
  · exact .inl ⟨featuresResponse, rfl⟩
  · exact .inl ⟨fieldValues, rfl⟩
  · exact .inr ⟨_, rfl⟩
  · exact .inr ⟨_, rfl⟩

/-- The reader of a type's name reads messages of the type. -/
theorem reader?_name {t : MessageType} (ht : t ≠ timestamp) : ∃ list : t.Form → Listing,
    Message.reader? t.name =
      some fun bs => (decode? bs).map fun m : t.Form => (list m, encode m) := by
  cases t
  case timestamp => exact absurd rfl ht
  all_goals exact ⟨Listable.list, rfl⟩

end MessageType

/-! ## Serialising again -/

namespace Message

theorem encode_decode?_encode {μ : Type} [Message μ] [LawfulMessage μ] {bs cs : Bytes}
    (h : (decode? (μ := μ) bs).map encode = some cs) (hlimit : cs.length < sizeLimit) :
    (decode? (μ := μ) cs).map encode = some cs := by
  obtain ⟨m, hm, rfl⟩ := Option.map_eq_some_iff.1 h
  rw [decode?_encode (valid_of_decode? hm) hlimit, Option.map_some]

/-- An entry on its own is spelled the same way again, though perhaps without its value. -/
theorem encode_decode?_encode_entry {α : Type} [EntryValue α] [LawfulEntryValue α] {bs cs : Bytes}
    (h : (decode? (μ := MapEntry α) bs).map encode = some cs) (hlimit : cs.length < sizeLimit) :
    (decode? (μ := MapEntry α) cs).map encode = some cs := by
  obtain ⟨e, he, rfl⟩ := Option.map_eq_some_iff.1 h
  rw [MapEntry.decode?_encode (MapEntry.valid_of_decode? he) hlimit, Option.map_some,
    MapEntry.encode_filter]

theorem map_snd_relist? {μ : Type} [Message μ] [Listable μ] (bs : Bytes) :
    (relist? μ bs).map (·.2) = (decode? (μ := μ) bs).map encode := by
  rw [relist?, Option.map_map]
  rfl

/-- Whatever a message of the schema is spelled as once it has been read, it is spelled that way
ever after. -/
theorem reader?_idempotent {name : String} {reader : Bytes → Option (Listing × Bytes)}
    (hreader : reader? name = some reader) {bs cs : Bytes} (h : (reader bs).map (·.2) = some cs)
    (hlimit : cs.length < sizeLimit) : (reader cs).map (·.2) = some cs := by
  unfold reader? at hreader
  split at hreader
  case h_19 => cases hreader
  all_goals
    obtain rfl := Option.some.inj hreader
    rw [map_snd_relist?] at h ⊢
    first
      | exact encode_decode?_encode h hlimit
      | exact encode_decode?_encode_entry h hlimit

/-- A message put together from valid parts is valid, with the unknown records of one that was read
or with none. -/
theorem valid_of_parts {μ : Type} [Message μ] [LawfulMessage μ] {m : μ}
    (hparts : LawfulMessage.Parts m)
    (hunknown : KeepsUnknown.unknown m = [] ∨
      ∃ bs, ∃ read : μ, decode? bs = some read ∧
        KeepsUnknown.unknown m = KeepsUnknown.unknown read) :
    Valid m := by
  refine ⟨hparts, ?_⟩
  rcases hunknown with hnone | ⟨bs, read, hread, heq⟩
  · simp [hnone]
  · rw [heq]
    exact (valid_of_decode? hread).kept

end Message

/-! ## The round trip -/

/-- Messages come back from the wire as they were sent, whatever their type.

A message that was read, or put together from valid parts, is read from its own serialisation as the
same message, provided that this is short enough for the wire. So reading and serialising again
changes no bytes, and the bytes do not show in which order the entries of a map were put in. -/
theorem MessageType.round_trip :
    (∀ t : MessageType,
      (∀ bs, ∀ m : t.Form, decode? bs = some m → Valid m) ∧
      (∀ m : t.Form, LawfulMessage.Parts m →
        (KeepsUnknown.unknown m = [] ∨ ∃ bs, ∃ read : t.Form, decode? bs = some read ∧
          KeepsUnknown.unknown m = KeepsUnknown.unknown read) → Valid m) ∧
      (∀ m : t.Form, Valid m → WithinLimit m → decode? (encode m) = some m) ∧
      (∀ bs cs, (decode? (μ := t.Form) bs).map encode = some cs → cs.length < sizeLimit →
        (decode? (μ := t.Form) cs).map encode = some cs)) ∧
    (∀ timestamp unknown, ∀ inserted inserted' : List (String × Value),
      (∀ key, inserted.reverse.lookup key = inserted'.reverse.lookup key) →
      encode (EntityRow.mk timestamp (.ofList inserted) unknown) =
        encode (EntityRow.mk timestamp (.ofList inserted') unknown)) ∧
    (∀ unknown, ∀ fields fields' : List (String × Value),
      ∀ statuses statuses' : List (String × Int32),
      (∀ key, fields.reverse.lookup key = fields'.reverse.lookup key) →
      (∀ key, statuses.reverse.lookup key = statuses'.reverse.lookup key) →
      encode (FieldValues.mk (.ofList fields) (.ofList statuses) unknown) =
        encode (FieldValues.mk (.ofList fields') (.ofList statuses') unknown)) := by
  refine ⟨fun t => ⟨?_, ?_, ?_, ?_⟩, ?_, ?_⟩
  · intro bs m hread
    exact Message.valid_of_decode? hread
  · intro m hparts hunknown
    exact Message.valid_of_parts hparts hunknown
  · intro m hvalid hlimit
    exact Message.decode?_encode hvalid hlimit
  · intro bs cs h hlimit
    exact Message.encode_decode?_encode h hlimit
  · intro timestamp unknown inserted inserted' hsame
    rw [FieldMap.ofList_congr hsame]
  · intro unknown fields fields' statuses statuses' hfields hstatuses
    rw [FieldMap.ofList_congr hfields, FieldMap.ofList_congr hstatuses]

/-- An entity row with members that hold their defaults and a record of unknown meaning, read from a
spelling that puts its entries the other way round and leaves one without a value. -/
theorem entityRow_round_trip :
    let row : EntityRow := ⟨some (.ofSeconds 0),
      .ofList [("a", ⟨some (.int32 0), []⟩), ("", .unset)], [.fixed32 3 1]⟩
    decode?
      [0x12, 0x02, 0x0a, 0x00, 0x0a, 0x00, 0x12, 0x07, 0x0a, 0x01, 0x61, 0x12, 0x02, 0x18, 0x00,
      0x1d, 0x01, 0x00, 0x00, 0x00] = some row ∧
    WithinLimit row ∧ decode? (encode row) = some row ∧
    encode row = encode (EntityRow.mk row.timestamp
      (.ofList [("", .unset), ("a", .unset), ("a", ⟨some (.int32 0), []⟩)]) row.unknown) := by
  intro row
  have hread :
      decode? [0x12, 0x02, 0x0a, 0x00, 0x0a, 0x00, 0x12, 0x07, 0x0a, 0x01, 0x61, 0x12, 0x02,
        0x18, 0x00, 0x1d, 0x01, 0x00, 0x00, 0x00] = some row := by decide +kernel
  have hlimit : (encode row).length < sizeLimit := by
    rw [← EntityRow.length_encodeIn (.refl _)]
    decide +kernel
  obtain ⟨hround, horder, -⟩ := MessageType.round_trip
  obtain ⟨hvalid, -, hback, -⟩ := hround .entityRow
  refine ⟨hread, hlimit, hback row (hvalid _ row hread) hlimit, horder _ _ _ _ fun key => ?_⟩
  simp only [List.reverse_cons, List.reverse_nil, List.nil_append, List.cons_append,
    lookup_cons_ite]
  by_cases ha : key = "a"
  · simp [ha]
  · simp [ha]

end OnlineFeatures
