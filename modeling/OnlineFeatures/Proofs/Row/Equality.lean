import Mathlib.Data.List.Perm.Subperm
import OnlineFeatures.Proofs.Row.Reachable

/-!
# Equality of rows and their hash

Rows are compared by look-ups only. Equality compares what the values say (`Value.said`), so that it
is an equality of functions on names (`Row.agree_iff`); the hash is taken of the bytes of the
values, and two rows have the same hash when these bytes are the same under every name
(`Row.hashed_eq_iff`). Neither sees the order of the entries or the point in time.

The bytes of a value give the value back, and so rows with the same hash are equal. The converse
holds as long as equal values spell their unknown records alike, and fails otherwise
(`Row.agree_and_hashed`): records of different tags may come in any order, which equality ignores
and the bytes keep.
-/

namespace OnlineFeatures

/-! ## What values say -/

/-- What unknown records say, in the order of their tags. -/
def Record.said (rs : List Record) : List Field :=
  (Field.arrangedEach (rs.map (·.field))).mergeSort Field.tagLe

theorem Record.agree_iff {rs ss : List Record} : Record.agree rs ss = true ↔ said rs = said ss :=
  beq_iff_eq

namespace Value

/-- The unknown records of the list that a value holds. -/
def inner (v : Value) : List Record := v.content.elim [] Content.unknown

/-- What a value says: its member without unknown records, and what the unknown records say. -/
def said (v : Value) : Option Content × List Field × List Field :=
  (v.content.map Content.known, Record.said v.inner, Record.said v.unknown)

/-- Values agree when they say the same. -/
theorem agree_iff {v w : Value} : v.agree w = true ↔ v.said = w.said := by
  obtain ⟨c, u⟩ := v
  obtain ⟨d, u'⟩ := w
  cases c <;> cases d <;>
    simp [agree, Content.agree, said, inner, Record.agree_iff, and_assoc]

/-- Whether two values spell their unknown records alike. -/
def SpelledAlike (v w : Value) : Prop :=
  Record.writeAll v.inner = Record.writeAll w.inner ∧
    Record.writeAll v.unknown = Record.writeAll w.unknown

end Value

/-! ## The bytes of values -/

theorem ListMessage.encode_eq {α : Type} [Element α] {l l' : ListMessage α}
    (hknown : l.known = l'.known)
    (hspelled : Record.writeAll l.unknown = Record.writeAll l'.unknown) :
    Message.encode l = Message.encode l' := by
  have hitems : l.items = l'.items := by
    show l.known.items = l'.known.items
    rw [hknown]
  rw [Record.writeAll, Record.writeAll] at hspelled
  simp [Message.encode, Message.records, Record.writeAll, hitems, hspelled]

theorem Content.record_eq {c d : Content} (hknown : c.known = d.known)
    (hspelled : Record.writeAll c.unknown = Record.writeAll d.unknown) : c.record = d.record := by
  have hnested {α : Type} [Element α] {l l' : ListMessage α} (number : Nat) (h : l.known = l'.known)
      (hu : Record.writeAll l.unknown = Record.writeAll l'.unknown) :
      Message.nested number l = Message.nested number l' := by
    rw [Message.nested, ListMessage.encode_eq h hu, Message.nested]
  cases c with
  | bytesList l | textList l | int32List l | int64List l | doubleList l | floatList l
  | boolList l =>
    cases d <;> simp only [known, reduceCtorEq, bytesList.injEq, textList.injEq, int32List.injEq,
      int64List.injEq, doubleList.injEq, floatList.injEq, boolList.injEq] at hknown
    exact hnested _ hknown hspelled
  | _ =>
    cases d <;> cases hknown
    rfl

namespace Value

/-- A value that is short enough for the wire is given by its bytes. -/
theorem eq_of_encode_eq {v w : Value} (hv : Message.Valid v) (hw : Message.Valid w)
    (hvlimit : Message.WithinLimit v) (hwlimit : Message.WithinLimit w)
    (h : Message.encode v = Message.encode w) : v = w := by
  have hread := Message.decode?_encode hv hvlimit
  rw [h, Message.decode?_encode hw hwlimit] at hread
  exact (Option.some.inj hread).symm

/-- Values that say the same and spell their unknown records alike have the same bytes. -/
theorem encode_eq_of_spelledAlike {v w : Value} (h : v.said = w.said)
    (hspelled : v.SpelledAlike w) :
    Message.encode v = Message.encode w := by
  obtain ⟨c, u⟩ := v
  obtain ⟨d, u'⟩ := w
  obtain ⟨hinner, hunknown⟩ := hspelled
  have hrecords : c.toList.map Content.record = d.toList.map Content.record := by
    have hknown : c.map Content.known = d.map Content.known := congrArg (·.1) h
    cases c <;> cases d <;>
      simp only [Option.map_some, Option.map_none, reduceCtorEq, Option.some.injEq]
      at hknown
    · rfl
    · exact congrArg ([·]) (Content.record_eq hknown hinner)
  have hencode (c : Option Content) (u : List Record) : Message.encode (⟨c, u⟩ : Value) =
      Record.writeAll (c.toList.map Content.record) ++ Record.writeAll u := List.flatMap_append
  rw [hencode, hencode, hrecords]
  exact congrArg _ hunknown

end Value

/-! ## Keys -/

namespace OrderedMap

variable {α β : Type} {m : OrderedMap α} {n : OrderedMap β}

theorem isSome_find? {key : String} : (m.find? key).isSome = true ↔ key ∈ m.keys := by
  rw [Option.isSome_iff_exists, keys, List.mem_map]
  constructor
  · rintro ⟨a, ha⟩
    exact ⟨(key, a), find?_eq_some_iff_mem.1 ha, rfl⟩
  · rintro ⟨⟨key, a⟩, hmem, rfl⟩
    exact ⟨a, find?_eq_some_iff_mem.2 hmem⟩

theorem find?_eq_none_iff {key : String} : m.find? key = none ↔ key ∉ m.keys := by
  rw [← isSome_find?, Bool.not_eq_true, Option.isSome_eq_false_iff, Option.isNone_iff_eq_none]

theorem keys_perm (h : ∀ key, (m.find? key).isSome = (n.find? key).isSome) :
    m.keys.Perm n.keys := by
  refine (List.perm_ext_iff_of_nodup m.nodup n.nodup).2 fun key => ?_
  show key ∈ m.keys ↔ key ∈ n.keys
  rw [← isSome_find?, h, isSome_find?]

/-- A map whose keys are all in another one that is no larger has the same keys. -/
theorem keys_perm_of_subset (hlength : m.entries.length = n.entries.length) (h : m.keys ⊆ n.keys) :
    m.keys.Perm n.keys :=
  (List.subperm_of_subset m.nodup h).perm_of_length_le (by simp [keys, hlength])

end OrderedMap

/-! ## Equality and hash by look-ups -/

namespace Row

variable {r s : Row}

theorem mapsMatch_eq_true_iff {α : Type} {same : α → α → Bool} {m n : OrderedMap α} :
    mapsMatch same m n = true ↔ m.entries.length = n.entries.length ∧
      ∀ key a, m.find? key = some a → ∃ b, n.find? key = some b ∧ same a b = true := by
  simp only [mapsMatch, Bool.and_eq_true, beq_iff_eq, List.all_eq_true]
  refine and_congr_right fun _ => ⟨fun h key a ha => ?_, fun h p hp => ?_⟩
  · have hsame := h (key, a) (OrderedMap.find?_eq_some_iff_mem.1 ha)
    cases hb : n.find? key with
    | none => simp [hb] at hsame
    | some b =>
      rw [hb] at hsame
      exact ⟨b, rfl, hsame⟩
  · obtain ⟨b, hb, hsame⟩ := h p.1 p.2 (OrderedMap.find?_eq_some_iff_mem.2 hp)
    simp only [hb, hsame]

/-- Maps match when they have the same look-ups up to what is compared. -/
theorem mapsMatch_iff {α β : Type} {same : α → α → Bool} {f : α → β}
    (hsame : ∀ a b, same a b = true ↔ f a = f b) {m n : OrderedMap α} :
    mapsMatch same m n = true ↔ ∀ key, (m.find? key).map f = (n.find? key).map f := by
  rw [mapsMatch_eq_true_iff]
  constructor
  · rintro ⟨hlength, hfound⟩ key
    have hsubset : m.keys ⊆ n.keys := by
      intro key hkey
      obtain ⟨a, ha⟩ := Option.isSome_iff_exists.1 (OrderedMap.isSome_find?.2 hkey)
      obtain ⟨b, hb, -⟩ := hfound key a ha
      exact OrderedMap.isSome_find?.1 (by rw [hb]; rfl)
    cases ha : m.find? key with
    | some a =>
      obtain ⟨b, hb, hab⟩ := hfound key a ha
      rw [hb, Option.map_some, Option.map_some, (hsame a b).1 hab]
    | none =>
      -- only the number of the entries keeps the second map from having more keys
      have hperm := OrderedMap.keys_perm_of_subset hlength hsubset
      rw [OrderedMap.find?_eq_none_iff, hperm.mem_iff, ← OrderedMap.find?_eq_none_iff] at ha
      rw [ha]
  · intro h
    have hperm : m.keys.Perm n.keys := by
      refine OrderedMap.keys_perm fun key => ?_
      have hkey := congrArg Option.isSome (h key)
      rwa [Option.isSome_map, Option.isSome_map] at hkey
    refine ⟨by simpa [OrderedMap.keys] using hperm.length_eq, fun key a ha => ?_⟩
    have hkey := h key
    rw [ha] at hkey
    obtain ⟨b, hb, hba⟩ := Option.map_eq_some_iff.1 hkey.symm
    exact ⟨b, hb, (hsame a b).2 hba.symm⟩

/-- Rows are equal when their values say the same under every name and their statuses are the
same. -/
theorem agree_iff : r.agree s = true ↔
    (∀ name, (r.fields.find? name).map Value.said = (s.fields.find? name).map Value.said) ∧
      ∀ name, r.statuses.find? name = s.statuses.find? name := by
  have hfields : mapsMatch Value.agree r.fields s.fields = true ↔ _ :=
    mapsMatch_iff (f := Value.said) fun v w => Value.agree_iff (v := v) (w := w)
  have hstatuses : mapsMatch (· == ·) r.statuses s.statuses = true ↔ _ :=
    mapsMatch_iff (f := id) fun a b => beq_iff_eq (a := a) (b := b)
  rw [agree, Bool.and_eq_true, hfields, hstatuses]
  simp only [Option.map_id, id]

/-- Rows have the same hash when their values have the same bytes under every name and their
statuses are the same. -/
theorem hashed_eq_iff : r.hashed = s.hashed ↔
    (∀ name, (r.fields.find? name).map Message.encode = (s.fields.find? name).map Message.encode) ∧
      ∀ name, r.statuses.find? name = s.statuses.find? name := by
  have hentries {α : Type} {m n : OrderedMap α} :
      (FieldMap.ofList m.entries).entries = (FieldMap.ofList n.entries).entries ↔
        ∀ key, m.find? key = n.find? key := by
    constructor
    · intro h key
      rw [← OrderedMap.find?_ofList_entries, ← OrderedMap.find?_ofList_entries, FieldMap.ext h]
    · intro h
      refine congrArg FieldMap.entries (FieldMap.ext_find? fun key => ?_)
      rw [OrderedMap.find?_ofList_entries, OrderedMap.find?_ofList_entries, h]
  have hfields :=
    hentries (m := r.fields.mapValues Message.encode) (n := s.fields.mapValues Message.encode)
  simp only [OrderedMap.find?_mapValues] at hfields
  rw [hashed, hashed, Prod.mk.injEq, ← hfields, hentries]
  rfl

/-- Equality of rows is an equivalence. -/
theorem agree_equivalence : Equivalence fun r s : Row => r.agree s = true where
  refl _ := agree_iff.2 ⟨fun _ => rfl, fun _ => rfl⟩
  symm h :=
    have ⟨hfields, hstatuses⟩ := agree_iff.1 h
    agree_iff.2 ⟨fun name => (hfields name).symm, fun name => (hstatuses name).symm⟩
  trans h h' :=
    have ⟨hfields, hstatuses⟩ := agree_iff.1 h
    have ⟨hfields', hstatuses'⟩ := agree_iff.1 h'
    agree_iff.2 ⟨fun name => (hfields name).trans (hfields' name),
      fun name => (hstatuses name).trans (hstatuses' name)⟩

/-- Neither equality nor hash depends on the order of the entries or on the point in time. -/
theorem agree_hashed_perm {r r' : Row} (hfields : r'.fields.entries.Perm r.fields.entries)
    (hstatuses : r'.statuses.entries.Perm r.statuses.entries) :
    r'.hashed = r.hashed ∧ ∀ t : Row, r'.agree t = r.agree t ∧ t.agree r' = t.agree r := by
  have hfield (name : String) : r'.fields.find? name = r.fields.find? name :=
    lookup_perm hfields r'.fields.nodup name
  have hstatus (name : String) : r'.statuses.find? name = r.statuses.find? name :=
    lookup_perm hstatuses r'.statuses.nodup name
  refine ⟨hashed_eq_iff.2 ⟨fun name => by rw [hfield], hstatus⟩, fun t => ⟨?_, ?_⟩⟩
  · rw [Bool.eq_iff_iff, agree_iff, agree_iff]
    simp only [hfield, hstatus]
  · rw [Bool.eq_iff_iff, agree_iff, agree_iff]
    simp only [hfield, hstatus]

/-! ## Equality against hash -/

/-- Whether the values of a row are short enough for the wire. A longer value cannot be written, and
a row that has one cannot be hashed. -/
def WithinLimit (r : Row) : Prop := ∀ p ∈ r.fields.entries, Message.WithinLimit p.2

/-- Whether the values under each name spell their unknown records alike. -/
def SpelledAlike (r s : Row) : Prop :=
  ∀ name v w, r.fields.find? name = some v → s.fields.find? name = some w → v.SpelledAlike w

section Hashed

variable (hr : r.Valid) (hs : s.Valid) (hrlimit : r.WithinLimit) (hslimit : s.WithinLimit)

include hr hs hrlimit hslimit

/-- Rows with the same hash have the same values and statuses. -/
theorem find?_eq_of_hashed_eq (h : r.hashed = s.hashed) (name : String) :
    r.fields.find? name = s.fields.find? name := by
  have hencode := (hashed_eq_iff.1 h).1 name
  cases hv : r.fields.find? name with
  | none =>
    rw [hv] at hencode
    exact (Option.map_eq_none_iff.1 hencode.symm).symm
  | some v =>
    rw [hv] at hencode
    obtain ⟨w, hw, hwv⟩ := Option.map_eq_some_iff.1 hencode.symm
    rw [hw, Value.eq_of_encode_eq (hs.value hw) (hr.value hv)
      (hslimit (name, w) (OrderedMap.find?_eq_some_iff_mem.1 hw))
      (hrlimit (name, v) (OrderedMap.find?_eq_some_iff_mem.1 hv)) hwv]

theorem agree_of_hashed_eq (h : r.hashed = s.hashed) : r.agree s = true := by
  refine agree_iff.2 ⟨fun name => ?_, (hashed_eq_iff.1 h).2⟩
  rw [find?_eq_of_hashed_eq hr hs hrlimit hslimit h]

/-- Equal rows have the same hash exactly when they spell their unknown records alike. -/
theorem hashed_eq_iff_spelledAlike (h : r.agree s = true) :
    r.hashed = s.hashed ↔ r.SpelledAlike s := by
  constructor
  · intro hhashed name v w hv hw
    rw [find?_eq_of_hashed_eq hr hs hrlimit hslimit hhashed, hw] at hv
    obtain rfl := Option.some.inj hv
    exact ⟨rfl, rfl⟩
  · intro hspelled
    obtain ⟨hfields, hstatuses⟩ := agree_iff.1 h
    refine hashed_eq_iff.2 ⟨fun name => ?_, hstatuses⟩
    have hsaid := hfields name
    cases hv : r.fields.find? name with
    | none =>
      rw [hv] at hsaid
      rw [Option.map_eq_none_iff.1 hsaid.symm]
    | some v =>
      rw [hv] at hsaid
      obtain ⟨w, hw, hwv⟩ := Option.map_eq_some_iff.1 hsaid.symm
      rw [hw, Option.map_some, Option.map_some,
        Value.encode_eq_of_spelledAlike hwv.symm (hspelled name v w hv hw)]

end Hashed

/-- How equality and hash of rows go together, for the rows of valid values, which all reachable
rows are.

Rows with the same hash are equal, and equal rows have the same hash exactly when they spell their
unknown records alike. Equality is an equivalence, and neither equality nor hash depends on the
order of fields or statuses or on the point in time. -/
theorem agree_and_hashed (hr : r.Valid) (hs : s.Valid) (hrlimit : r.WithinLimit)
    (hslimit : s.WithinLimit) :
    (∀ r : Row, r.Reachable → r.Valid) ∧
    (r.hashed = s.hashed → r.agree s = true) ∧
    (r.agree s = true → (r.hashed = s.hashed ↔ r.SpelledAlike s)) ∧
    (Equivalence fun r s : Row => r.agree s = true) ∧
    ∀ r r' : Row, r'.fields.entries.Perm r.fields.entries →
      r'.statuses.entries.Perm r.statuses.entries →
      r'.hashed = r.hashed ∧ ∀ t : Row, r'.agree t = r.agree t ∧ t.agree r' = t.agree r :=
  ⟨fun _ h => h.valid, agree_of_hashed_eq hr hs hrlimit hslimit,
    hashed_eq_iff_spelledAlike hr hs hrlimit hslimit, agree_equivalence,
    fun _ _ hfields hstatuses => agree_hashed_perm hfields hstatuses⟩

/-- Two rows that were set to the same values in a different order, one of them a value with an
unknown record. -/
theorem agree_and_hashed_order :
    let v : Value := ⟨none, [.varint 20 1]⟩
    let start := Row.emptyAt (.ofSeconds 1)
    let r := ((start.step (.set "a" (.value v) .none)).1.step (.set "b" (.bool true) .none)).1
    let s := ((start.step (.set "b" (.bool true) .none)).1.step (.set "a" (.value v) .none)).1
    r.fields.entries ≠ s.fields.entries ∧ r.hashed = s.hashed ∧ r.agree s = true := by
  intro v start r s
  have hcreate : Row.create ⟨0x3ff0000000000000⟩ = .ok start := by rfl
  have hv : Message.Valid v :=
    Message.valid_of_decode? (by decide +kernel : Message.decode? [0xa0, 0x01, 0x01] = some v)
  have hr : r.Reachable :=
    ((Reachable.created hcreate).step (s := .set "a" (.value v) .none) hv).step
      (s := .set "b" (.bool true) .none) trivial
  have hs : s.Reachable :=
    ((Reachable.created hcreate).step (s := .set "b" (.bool true) .none) trivial).step
      (s := .set "a" (.value v) .none) hv
  have hrlimit : r.WithinLimit := by
    show ∀ p ∈ [("a", v), ("b", Value.ofContent (.bool true))],
      (Message.encode p.2).length < 0x80000000
    decide +kernel
  have hslimit : s.WithinLimit := by
    show ∀ p ∈ [("b", Value.ofContent (.bool true)), ("a", v)],
      (Message.encode p.2).length < 0x80000000
    decide +kernel
  obtain ⟨-, hagree, -, -, hperm⟩ := agree_and_hashed hs.valid hr.valid hslimit hrlimit
  have hhashed := (hperm s r (.swap ..) .nil).1
  exact ⟨by decide +kernel, hhashed, agree_equivalence.symm (hagree hhashed.symm)⟩

/-- Equal rows do not always have the same hash: the unknown records of one value may come in two
orders. -/
theorem agree_not_hashed : ¬ ∀ r s : Row, r.Reachable → s.Reachable → r.agree s = true →
    r.hashed = s.hashed := by
  intro h
  let v : Value := ⟨none, [.varint 20 1, .varint 21 2]⟩
  let w : Value := ⟨none, [.varint 21 2, .varint 20 1]⟩
  let start := Row.emptyAt (.ofSeconds 1)
  have hcreate : Row.create ⟨0x3ff0000000000000⟩ = .ok start := by rfl
  have hv : Message.Valid v := Message.valid_of_decode?
    (by decide +kernel : Message.decode? [0xa0, 0x01, 0x01, 0xa8, 0x01, 0x02] = some v)
  have hw : Message.Valid w := Message.valid_of_decode?
    (by decide +kernel : Message.decode? [0xa8, 0x01, 0x02, 0xa0, 0x01, 0x01] = some w)
  have hsorted : [Field.varint 20 1, .varint 21 2].mergeSort Field.tagLe =
      [Field.varint 21 2, .varint 20 1].mergeSort Field.tagLe := by
    simp [List.mergeSort, List.MergeSort.Internal.splitInTwo, Field.tagLe, Field.number, Field.kind,
      Tag.code, WireKind.code]
  have hsaid : v.said = w.said := Prod.ext rfl (Prod.ext rfl hsorted)
  have hagree : (start.store "a" v none).agree (start.store "a" w none) = true := by
    refine agree_iff.2 ⟨fun name => ?_, fun _ => rfl⟩
    simp only [store, storeField, storeStatus, OrderedMap.find?_set]
    split
    · rw [Option.map_some, Option.map_some, hsaid]
    · rfl
  have hhashed := h _ _ ((Reachable.created hcreate).step (s := .set "a" (.value v) .none) hv)
    ((Reachable.created hcreate).step (s := .set "a" (.value w) .none) hw) hagree
  exact absurd hhashed (by decide +kernel)

end Row

end OnlineFeatures
