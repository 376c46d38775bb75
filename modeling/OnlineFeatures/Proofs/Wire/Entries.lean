import OnlineFeatures.Proofs.Wire.Elements
import OnlineFeatures.Proofs.Wire.Maps

/-!
# Map entries

A map is sent as entries, each a message of a key and a value. An entry that was written for a map
is read as that entry, in whatever order entries stand (`FieldMap.foldlM_absorb_records`). An entry
with unknown fields of its own is not entered but kept as a record, and that record is kept again
when it is read again (`FieldMap.readEntry?_kept`).

An entry is not quite a lawful message: written on its own it leaves out a value that is the default
of its type, and so `MapEntry.decode?_encode` gives back the entry without it.
-/

namespace OnlineFeatures

/-- The laws of a type of map values. -/
class LawfulEntryValue (α : Type) [EntryValue α] where
  /-- Whether a value may have been built or read. -/
  Valid : α → Prop
  valid_missing : Valid EntryValue.missing
  valid_absorb : ∀ {held f} {a : α}, (∀ b, held = some b → Valid b) →
    EntryValue.absorb held f = .taken a → Valid a
  foreign_absorb : ∀ {held : Option α} {f}, EntryValue.absorb held f = .foreign →
    ∀ held' : Option α, EntryValue.absorb held' f = .foreign
  /-- Only records of field 2 are a value's own. -/
  foreign_of_number : ∀ {f}, f.number ≠ 2 → ∀ held : Option α, EntryValue.absorb held f = .foreign
  number_write : ∀ a : α, (EntryValue.write a).field.number = 2
  wellFormed_write : ∀ a : α, (EntryValue.write a).spelling.length < Message.sizeLimit →
    (EntryValue.write a).WellFormed
  absorb_write : ∀ {a : α}, Valid a → (EntryValue.write a).spelling.length < Message.sizeLimit →
    EntryValue.absorb none (EntryValue.write a).field = .taken a

/-- The numbers of an open enumeration. -/
instance : LawfulEntryValue Int32 where
  Valid _ := True
  valid_missing := trivial
  valid_absorb _ _ := trivial
  foreign_absorb {held f} h held' := by
    simp only [EntryValue.absorb] at h ⊢
    split at h
    · simp at h
    · rfl
  foreign_of_number hf _ := by
    simp only [EntryValue.absorb]
    split
    · exact absurd rfl hf
    · rfl
  number_write _ := rfl
  wellFormed_write _ _ := Record.wellFormed_varint (by decide) _
  absorb_write _ _ := by
    simp only [EntryValue.write, Record.varint, EntryValue.absorb,
      LawfulVarintCoded.ofVarint_toVarint]

namespace MapEntry

variable {α : Type} [EntryValue α]

/-! ## Taking up records -/

theorem absorb_key {r : Record} {content : Bytes} (h : r.field = .bytes 1 content)
    (e : MapEntry α) :
    Message.absorb e r = (Utf8.decode? content).map fun key => { e with key } := by
  simp only [Message.absorb, h]

theorem absorb_other {r : Record} (h : ∀ content, r.field ≠ .bytes 1 content) (e : MapEntry α) :
    Message.absorb e r =
      match EntryValue.absorb e.value r.field with
      | .taken a => some { e with value := some a }
      | .foreign => some { e with unknown := e.unknown ++ [r] }
      | .malformed => none := by
  cases hread : EntryValue.absorb e.value r.field <;> simp only [Message.absorb, hread]

instance : KeepsUnknown (MapEntry α) where
  unknown e := e.unknown
  setUnknown e u := { e with unknown := u }
  unknown_setUnknown _ _ := rfl
  setUnknown_setUnknown _ _ _ := rfl
  setUnknown_unknown _ := rfl

theorem absorb_keyRecord (e : MapEntry α) (key : String) :
    Message.absorb e (keyRecord key) = some { e with key } := by
  rw [absorb_key (r := keyRecord key) rfl, Utf8.decode?_encode]
  rfl

theorem wellFormed_keyRecord {key : String}
    (h : (keyRecord key).spelling.length < Message.sizeLimit) : (keyRecord key).WellFormed :=
  Message.wellFormed_bytes (by decide) h

/-- The records of the known fields of an entry. -/
def known (e : MapEntry α) : List Record :=
  (if e.key = "" then [] else [keyRecord e.key]) ++
    (e.value.filter EntryValue.repeated).toList.map EntryValue.write

/-- An entry is written alike without a value that is left out. -/
theorem encode_filter (e : MapEntry α) :
    Message.encode { e with value := e.value.filter EntryValue.repeated } = Message.encode e := by
  simp only [Message.encode, Message.records]
  cases e.value with
  | none => rfl
  | some a => by_cases ha : EntryValue.repeated a <;> simp [Option.filter, ha]

variable [LawfulEntryValue α]

/-- An entry that may have been read. -/
structure Valid (e : MapEntry α) : Prop where
  value : ∀ a, e.value = some a → LawfulEntryValue.Valid a
  kept : ∀ r ∈ e.unknown, Message.Kept (MapEntry α) r

theorem valid_absorb {e e' : MapEntry α} {r : Record} (he : e.Valid) (hr : r.WellFormed)
    (h : Message.absorb e r = some e') : e'.Valid := by
  -- the key takes any text, so only a value or a record that is kept has to be valid
  by_cases hkey : ∃ content, r.field = .bytes 1 content
  · obtain ⟨content, hkey⟩ := hkey
    rw [absorb_key hkey, Option.map_eq_some_iff] at h
    obtain ⟨key, -, rfl⟩ := h
    exact ⟨he.value, he.kept⟩
  · have hother : ∀ content, r.field ≠ .bytes 1 content := fun content h => hkey ⟨content, h⟩
    rw [absorb_other hother] at h
    cases hread : EntryValue.absorb e.value r.field with
    | taken a =>
      simp only [hread, Option.some.injEq] at h
      subst h
      refine ⟨fun b hb => ?_, he.kept⟩
      obtain rfl : a = b := Option.some.inj hb
      exact LawfulEntryValue.valid_absorb he.value hread
    | foreign =>
      simp only [hread, Option.some.injEq] at h
      subst h
      refine ⟨he.value, List.forall_mem_append.2 ⟨he.kept, ?_⟩⟩
      rw [List.forall_mem_singleton]
      refine fun _ => ⟨hr, fun e => ?_⟩
      rw [absorb_other hother, LawfulEntryValue.foreign_absorb hread]
      rfl
    | malformed => simp [hread] at h

theorem valid_of_decode? {e : MapEntry α} {bs : Bytes} (h : Message.decode? bs = some e) :
    e.Valid := by
  obtain ⟨rs, hrs, hfold⟩ := Option.bind_eq_some_iff.1 h
  exact Message.foldlM_absorb_invariant (Record.readAll?_eq_some_iff.1 hrs).2 valid_absorb
    ⟨by rintro _ ⟨⟩, by rintro _ ⟨⟩⟩ hfold

/-! ## Reading written records -/

theorem absorb_write {e : MapEntry α} {a : α} (he : e.value = none)
    (ha : LawfulEntryValue.Valid a)
    (hlen : (EntryValue.write a).spelling.length < Message.sizeLimit) :
    Message.absorb e (EntryValue.write a) = some { e with value := some a } := by
  have hother (content : Bytes) : (EntryValue.write a).field ≠ .bytes 1 content := by
    intro h
    have := LawfulEntryValue.number_write a
    simp [h, Field.number] at this
  rw [absorb_other hother, he, LawfulEntryValue.absorb_write ha hlen]

theorem foldlM_absorb_known {e : MapEntry α} (he : e.Valid)
    (hlen : ∀ r ∈ e.known, r.spelling.length < Message.sizeLimit) :
    e.known.foldlM Message.absorb Message.empty =
      some (⟨e.key, e.value.filter EntryValue.repeated, []⟩ : MapEntry α) := by
  -- a blank key sends no record, and is what an entry starts from
  have hkey : (if e.key = "" then [] else [keyRecord e.key]).foldlM Message.absorb
      (Message.empty : MapEntry α) = some (⟨e.key, none, []⟩ : MapEntry α) := by
    split
    · rename_i hblank
      rw [hblank]
      rfl
    · simp [absorb_keyRecord, Message.empty]
  rw [known, List.foldlM_append, hkey]
  show ((e.value.filter EntryValue.repeated).toList.map EntryValue.write).foldlM Message.absorb
    (⟨e.key, none, []⟩ : MapEntry α) = _
  cases hvalue : e.value.filter EntryValue.repeated with
  | none => rfl
  | some a =>
    have ha := he.value a (Option.filter_eq_some_iff.1 hvalue).1
    have hwrite := hlen (EntryValue.write a) (by simp [known, hvalue])
    have hstep := absorb_write (e := ⟨e.key, none, []⟩) rfl ha hwrite
    simp [hstep]

/-- An entry written on its own is read without a value that is left out. -/
theorem decode?_encode {e : MapEntry α} (he : e.Valid) (hlimit : Message.WithinLimit e) :
    Message.decode? (Message.encode e) =
      some { e with value := e.value.filter EntryValue.repeated } := by
  have hlength : ∀ r ∈ e.known ++ e.unknown, r.spelling.length < Message.sizeLimit :=
    fun r hr => Nat.lt_of_le_of_lt (Message.spelling_length_le hr) hlimit
  obtain ⟨hknown, hkept⟩ := List.forall_mem_append.1 hlength
  have hwf : ∀ r ∈ e.known, r.WellFormed := by
    intro r hr
    have hr' := hknown r hr
    rw [known, List.mem_append] at hr
    rcases hr with hr | hr
    · split at hr
      · simp at hr
      · obtain rfl := List.mem_singleton.1 hr
        exact wellFormed_keyRecord hr'
    · obtain ⟨a, -, rfl⟩ := List.mem_map.1 hr
      exact LawfulEntryValue.wellFormed_write a hr'
  exact Message.decode?_writeAll hwf (foldlM_absorb_known he hknown) rfl
    fun r hr => he.kept r hr (hkept r hr)

end MapEntry

/-! ## Map fields -/

namespace FieldMap

variable {α : Type} [EntryValue α]

/-- The content of the entry that a map writes. -/
theorem writeEntry_eq (number : Nat) (entry : String × α) :
    writeEntry number entry = .bytes number
      (Record.writeAll [MapEntry.keyRecord entry.1, EntryValue.write entry.2]) := rfl

theorem mem_records {m : FieldMap α} {number : Nat} {r : Record} (h : r ∈ m.records number) :
    ∃ entry ∈ m.entries, r = writeEntry number entry := by
  obtain ⟨entry, hentry, rfl⟩ := List.mem_map.1 h
  exact ⟨entry, List.mem_mergeSort.1 hentry, rfl⟩

variable [LawfulEntryValue α]

/-- A map of valid values. -/
def Valid (m : FieldMap α) : Prop := ∀ p ∈ m.entries, LawfulEntryValue.Valid p.2

theorem valid_empty : Valid (empty : FieldMap α) := by
  rintro _ ⟨⟩

theorem Valid.insert {m : FieldMap α} (hm : m.Valid) {key : String} {a : α}
    (ha : LawfulEntryValue.Valid a) : (m.insert key a).Valid := by
  intro p hp
  rcases mem_insertEntry hp with rfl | hp
  · exact ha
  · exact hm p hp

theorem valid_ofList {l : List (String × α)} (h : ∀ p ∈ l, LawfulEntryValue.Valid p.2) :
    (ofList l).Valid := by
  suffices hfold : ∀ m : FieldMap α, m.Valid →
      (l.foldl (fun m p => m.insert p.1 p.2) m).Valid from hfold empty valid_empty
  induction l with
  | nil => exact fun m hm => hm
  | cons p l ih =>
    obtain ⟨hp, hl⟩ := List.forall_mem_cons.1 h
    exact fun m hm => ih hl _ (hm.insert hp)

/-- What a map writes for an entry is read as that entry. -/
theorem readEntry?_writeEntry {number : Nat} {entry : String × α}
    (hvalid : LawfulEntryValue.Valid entry.2)
    (hlen : (writeEntry number entry).spelling.length < Message.sizeLimit) :
    readEntry? number (Record.writeAll [MapEntry.keyRecord entry.1, EntryValue.write entry.2]) =
      some (.inl entry) := by
  obtain ⟨key, a⟩ := entry
  -- each record of the entry is shorter than the entry, and so below the limit
  have hlength : ∀ r ∈ [MapEntry.keyRecord key, EntryValue.write a],
      r.spelling.length < Message.sizeLimit := by
    intro r hr
    have := Message.spelling_length_le hr
    simp only [writeEntry_eq, Record.bytes, List.length_append] at hlen
    omega
  have hkey := hlength (MapEntry.keyRecord key) (by simp)
  have hwrite := hlength (EntryValue.write a) (by simp)
  have hstep := MapEntry.absorb_write (e := ⟨key, none, []⟩) rfl hvalid hwrite
  have hread : Message.decode?
      (Record.writeAll ([MapEntry.keyRecord key, EntryValue.write a] ++ [])) =
        some (⟨key, some a, []⟩ : MapEntry α) := by
    refine Message.decode?_writeAll (m := MapEntry.mk key (some a) []) ?_ ?_ rfl (by simp)
    · simp [MapEntry.wellFormed_keyRecord hkey, LawfulEntryValue.wellFormed_write a hwrite]
    · simp [MapEntry.absorb_keyRecord, hstep, Message.empty]
  rw [List.append_nil] at hread
  rw [FieldMap.readEntry?, hread]
  rfl

theorem valid_of_readEntry? {number : Nat} {content : Bytes} {key : String} {a : α}
    (h : readEntry? number content = some (.inl (key, a))) : LawfulEntryValue.Valid a := by
  rw [FieldMap.readEntry?, Option.map_eq_some_iff] at h
  obtain ⟨e, he, h⟩ := h
  split at h
  · obtain ⟨-, rfl⟩ := Prod.mk.inj (Sum.inl.inj h)
    cases hvalue : e.value with
    | none => exact LawfulEntryValue.valid_missing
    | some b => exact (MapEntry.valid_of_decode? he).value b hvalue
  · simp at h

/-- An entry that is kept is kept in the same form when it is read again. -/
theorem readEntry?_kept {number : Nat} {content : Bytes} {r : Record}
    (h : readEntry? (α := α) number content = some (.inr r)) :
    ∃ content', r = .bytes number content' ∧
      (r.spelling.length < Message.sizeLimit →
        readEntry? (α := α) number content' = some (.inr r)) := by
  rw [FieldMap.readEntry?, Option.map_eq_some_iff] at h
  obtain ⟨e, he, h⟩ := h
  split at h
  · simp at h
  · rename_i hunknown
    obtain rfl := Sum.inr.inj h
    refine ⟨Message.encode e, rfl, fun hlen => ?_⟩
    have hback := MapEntry.decode?_encode (MapEntry.valid_of_decode? he)
      (Nat.lt_of_le_of_lt (Message.length_encode_le_nested number e) hlen)
    rw [FieldMap.readEntry?, hback, Option.map_some, if_neg hunknown, Message.nested,
      MapEntry.encode_filter]
    rfl

/-- The records of entries give the map of these, when every entry that is read goes into its
slot. -/
theorem foldlM_absorb_entries {μ : Type} [Message μ] {number : Nat} (slot : FieldMap α → μ)
    (hslot : ∀ m content key a, readEntry? number content = some (.inl (key, a)) →
      Message.absorb (slot m) (.bytes number content) = some (slot (m.insert key a)))
    {entries : List (String × α)} (hvalid : ∀ p ∈ entries, LawfulEntryValue.Valid p.2)
    (hlen : ∀ r ∈ entries.map (writeEntry number), r.spelling.length < Message.sizeLimit) :
    (entries.map (writeEntry number)).foldlM Message.absorb (slot empty) =
      some (slot (ofList entries)) := by
  rw [Message.foldlM_absorb_slot slot (fun m entry => m.insert entry.1 entry.2)]
  · rfl
  · rintro m ⟨key, a⟩ hentry
    have hwritten := hlen (writeEntry number (key, a)) (List.mem_map_of_mem hentry)
    exact hslot _ _ _ _ (FieldMap.readEntry?_writeEntry (hvalid (key, a) hentry) hwritten)

/-- The records of a map give the map. -/
theorem foldlM_absorb_records {μ : Type} [Message μ] {number : Nat} {m : FieldMap α}
    (slot : FieldMap α → μ)
    (hslot : ∀ m content key a, readEntry? number content = some (.inl (key, a)) →
      Message.absorb (slot m) (.bytes number content) = some (slot (m.insert key a)))
    (hvalid : m.Valid) (hlen : ∀ r ∈ m.records number, r.spelling.length < Message.sizeLimit) :
    (m.records number).foldlM Message.absorb (slot empty) = some (slot m) := by
  have hsorted := List.mergeSort_perm m.entries fun a b => sentBefore a.1.toList b.1.toList
  rw [records, foldlM_absorb_entries slot hslot (fun p hp => hvalid p (hsorted.mem_iff.1 hp)) hlen,
    ofList_perm_entries hsorted]

end FieldMap

end OnlineFeatures
