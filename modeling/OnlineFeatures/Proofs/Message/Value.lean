import OnlineFeatures.Message.Value
import OnlineFeatures.Proofs.Wire.Entries

/-!
# Values on the wire

Values are lawful messages. Whether a record is one of a value's own does not depend on what the
value holds (`Content.absorb_foreign`), and the record of a member gives that member to a value that
holds nothing yet (`Content.absorb_record`), also where the member holds the default of its type.
-/

namespace OnlineFeatures

namespace Content

/-- Whether a member may have been built or read. -/
def Valid : Content → Prop
  | bytesList l => Message.Valid l
  | textList l => Message.Valid l
  | int32List l => Message.Valid l
  | int64List l => Message.Valid l
  | doubleList l => Message.Valid l
  | floatList l => Message.Valid l
  | boolList l => Message.Valid l
  | _ => True

/-! ## Taking up records -/

theorem ofOption_eq_taken {o : Option Content} {c : Content} :
    absorb.ofOption o = .taken c ↔ o = some c := by
  cases o <;> simp [absorb.ofOption]

theorem ofOption_ne_foreign (o : Option Content) : absorb.ofOption o ≠ .foreign := by
  cases o <;> simp [absorb.ofOption]

/-- A record is foreign to a value whatever the value holds. -/
theorem absorb_foreign {held : Option Content} {f : Field} (h : absorb held f = .foreign)
    (held' : Option Content) : absorb held' f = .foreign := by
  unfold absorb at h
  split at h
  case h_16 => simp only [absorb]
  all_goals first
    | exact absurd h (ofOption_ne_foreign _)
    | cases h

theorem valid_listFrom {α : Type} [Element α] [LawfulElement α] {held : Option (ListMessage α)}
    {content : Bytes} {l : ListMessage α} (hheld : ∀ l₀, held = some l₀ → Message.Valid l₀)
    (h : listFrom held content = some l) : Message.Valid l := by
  refine Message.valid_mergeFrom ?_ h
  cases held with
  | none => exact Message.valid_empty
  | some l₀ => exact hheld l₀ rfl

/-- What a value holds after one more record is valid, if it was before. -/
theorem valid_absorb {held : Option Content} {f : Field} {c : Content}
    (hheld : ∀ c₀, held = some c₀ → c₀.Valid) (h : absorb held f = .taken c) : c.Valid := by
  unfold absorb at h
  split at h
  case h_16 => cases h
  any_goals
    cases h
    exact trivial
  case h_2 =>
    obtain ⟨s, -, rfl⟩ := Option.map_eq_some_iff.1 (ofOption_eq_taken.1 h)
    exact trivial
  all_goals
    obtain ⟨l, hl, rfl⟩ := Option.map_eq_some_iff.1 (ofOption_eq_taken.1 h)
    refine valid_listFrom (fun l₀ h₀ => ?_) hl
    split at h₀
    · cases h₀
      exact hheld _ rfl
    · cases h₀

/-! ## Reading written records -/

theorem listFrom_encode {α : Type} [Element α] [LawfulElement α] {l : ListMessage α} {number : Nat}
    (hl : Message.Valid l)
    (hlen : (Message.nested number l).spelling.length < Message.sizeLimit) :
    listFrom none (Message.encode l) = some l :=
  Message.decode?_nested hl hlen

/-- The record of a member gives the member. -/
theorem absorb_record {c : Content} (hc : c.Valid)
    (hlen : c.record.spelling.length < Message.sizeLimit) :
    absorb none c.record.field = .taken c := by
  cases c with
  | text s =>
    show absorb.ofOption ((Utf8.decode? (Utf8.encode s)).map .text) = _
    rw [Utf8.decode?_encode]
    rfl
  | bytes | double | float => rfl
  | int32 i | int64 i | bool i | null i =>
    simp only [record, Record.varint, absorb, LawfulVarintCoded.ofVarint_toVarint]
  | bytesList l | textList l | int32List l | int64List l | doubleList l | floatList l
  | boolList l =>
    simp only [record, Message.nested, Record.bytes, absorb, listFrom_encode hc hlen]
    rfl

theorem wellFormed_record {c : Content} (hlen : c.record.spelling.length < Message.sizeLimit) :
    c.record.WellFormed := by
  cases c with
  | bytes | text | bytesList | textList | int32List | int64List | doubleList | floatList
  | boolList => exact Message.wellFormed_bytes (by decide) hlen
  | int32 | int64 | bool | null => exact Record.wellFormed_varint (by decide) _
  | double => exact Record.wellFormed_fixed64 (by decide) _
  | float => exact Record.wellFormed_fixed32 (by decide) _

end Content

namespace Value

theorem absorb_eq (v : Value) (r : Record) :
    Message.absorb v r =
      match Content.absorb v.content r.field with
      | .taken c => some { v with content := some c }
      | .foreign => some { v with unknown := v.unknown ++ [r] }
      | .malformed => none := rfl

instance : LawfulMessage Value where
  unknown v := v.unknown
  setUnknown v u := { v with unknown := u }
  unknown_setUnknown _ _ := rfl
  setUnknown_setUnknown _ _ _ := rfl
  setUnknown_unknown _ := rfl
  known v := v.content.toList.map Content.record
  Parts v := ∀ c, v.content = some c → c.Valid
  records_eq _ := rfl
  parts_setUnknown := id
  parts_empty _ h := by cases h
  unknown_empty := rfl
  absorb_cases {v v' r} hv hr h := by
    rw [absorb_eq] at h
    cases hread : Content.absorb v.content r.field with
    | taken c =>
      simp only [hread, Option.some.injEq] at h
      subst h
      refine .inl ⟨fun c' hc' => ?_, rfl⟩
      obtain rfl : c = c' := Option.some.inj hc'
      exact Content.valid_absorb hv hread
    | foreign =>
      simp only [hread, Option.some.injEq] at h
      subst h
      refine .inr ⟨r, fun _ => ⟨hr, fun w => ?_⟩, rfl⟩
      rw [absorb_eq, Content.absorb_foreign hread]
      rfl
    | malformed => simp [hread] at h
  wellFormed_known {v r} hr hlen := by
    obtain ⟨c, -, rfl⟩ := List.mem_map.1 hr
    exact Content.wellFormed_record hlen
  rebuild {v} hv hlen := by
    cases hc : v.content with
    | none => simp [Message.empty]
    | some c =>
      have hrecord := Content.absorb_record (hv c hc) (hlen c.record (by simp [hc]))
      simp [absorb_eq, Message.empty, hrecord]

end Value

/-- Values as the values of a map. -/
instance : LawfulEntryValue Value where
  Valid := Message.Valid
  valid_missing := Message.valid_empty
  valid_absorb {held f a} hheld h := by
    simp only [EntryValue.absorb] at h
    split at h
    · rename_i content
      cases hread : Message.mergeFrom (held.getD .unset) content with
      | none => simp [hread] at h
      | some v =>
        simp only [hread, Reading.taken.injEq] at h
        subst h
        refine Message.valid_mergeFrom ?_ hread
        cases held with
        | none => exact Message.valid_empty
        | some v => exact hheld v rfl
    · cases h
  foreign_absorb {held f} h held' := by
    simp only [EntryValue.absorb] at h ⊢
    split at h
    · split at h <;> cases h
    · rfl
  foreign_of_number hf _ := by
    simp only [EntryValue.absorb]
    split
    · exact absurd rfl hf
    · rfl
  number_write _ := rfl
  wellFormed_write _ hlen := Message.wellFormed_bytes (by decide) hlen
  absorb_write {v} hv hlen := by
    have hread : Message.mergeFrom Value.unset (Message.encode v) = some v :=
      Message.decode?_nested hv hlen
    simp only [EntryValue.write, Message.nested, Record.bytes, EntryValue.absorb, Option.getD_none,
      hread]

end OnlineFeatures
