import OnlineFeatures.Proofs.Wire.Lawful

/-!
# Sequences on the wire

The list messages are lawful. Numbers are sent as one packed record, bytes and texts as a record
each; both are read back as the sequence they were written from. `Element.ofRecords?` is what
records bring together, and `Element.ofRecords?_write` the one law of an element type.
-/

namespace OnlineFeatures

/-! ## Numbers as varints -/

/-- A type of numbers that varints carry without loss. -/
class LawfulVarintCoded (α : Type) [VarintCoded α] : Prop where
  ofVarint_toVarint : ∀ a : α, VarintCoded.ofVarint (VarintCoded.toVarint a) = a

/-- The low half of a sign-extended number is the number. -/
instance : LawfulVarintCoded Int32 where
  ofVarint_toVarint i := by
    apply Int32.toBitVec_inj.1
    show (i.toBitVec.signExtend 64).setWidth 32 = i.toBitVec
    apply BitVec.eq_of_getElem_eq
    intro k hk
    have hk' : k < 64 := by omega
    rw [BitVec.getElem_setWidth, BitVec.getLsbD_signExtend]
    simp [hk, hk']

instance : LawfulVarintCoded Int64 where
  ofVarint_toVarint i := by
    simp [VarintCoded.ofVarint, VarintCoded.toVarint]

instance : LawfulVarintCoded Bool where
  ofVarint_toVarint b := by cases b <;> rfl

/-! ## Packed numbers -/

theorem Varint.readAll?_flatMap_encode {fuel : Nat} {vs : List UInt64} (h : vs.length ≤ fuel) :
    Varint.readAll? fuel (vs.flatMap fun v => Varint.encode v.toNat) = some vs := by
  induction vs generalizing fuel with
  | nil => cases fuel <;> rfl
  | cons v vs ih =>
    rw [List.length_cons] at h
    obtain ⟨fuel, rfl⟩ : ∃ n, fuel = n + 1 := ⟨fuel - 1, by omega⟩
    obtain ⟨b, bs, hcons⟩ := List.exists_cons_of_ne_nil
      (List.append_ne_nil_of_left_ne_nil (Varint.encode_ne_nil v.toNat)
        (vs.flatMap fun v => Varint.encode v.toNat))
    have hread := Varint.readValue?_encode v (vs.flatMap fun v => Varint.encode v.toNat)
    rw [hcons] at hread
    rw [List.flatMap_cons, hcons]
    simp only [Varint.readAll?, hread, ih (by omega : vs.length ≤ fuel), Option.map_some]

theorem FixedWidth.encode_ne_nil {width : Nat} (h : 0 < width) (n : Nat) :
    FixedWidth.encode width n ≠ [] := by
  cases width with
  | zero => exact absurd h (by decide)
  | succ width => simp [FixedWidth.encode]

theorem FixedWidth.readAll?_flatMap_encode {width fuel : Nat} {ns : List Nat}
    (hwidth : 0 < width) (hn : ∀ n ∈ ns, n < Nat.pow 256 width) (h : ns.length ≤ fuel) :
    FixedWidth.readAll? width fuel (ns.flatMap (FixedWidth.encode width)) = some ns := by
  induction ns generalizing fuel with
  | nil => cases fuel <;> rfl
  | cons n ns ih =>
    obtain ⟨hn, hns⟩ := List.forall_mem_cons.1 hn
    rw [List.length_cons] at h
    obtain ⟨fuel, rfl⟩ : ∃ n, fuel = n + 1 := ⟨fuel - 1, by omega⟩
    obtain ⟨b, bs, hcons⟩ := List.exists_cons_of_ne_nil
      (List.append_ne_nil_of_left_ne_nil (FixedWidth.encode_ne_nil hwidth n)
        (ns.flatMap (FixedWidth.encode width)))
    have hread := FixedWidth.read?_encode width n (ns.flatMap (FixedWidth.encode width)) hn
    rw [hcons] at hread
    rw [List.flatMap_cons, hcons]
    simp only [FixedWidth.readAll?, hread, ih hns (by omega : ns.length ≤ fuel), Option.map_some]

theorem length_le_flatMap {α : Type} {f : α → Bytes} (hf : ∀ a, f a ≠ []) (xs : List α) :
    xs.length ≤ (xs.flatMap f).length := by
  induction xs with
  | nil => simp
  | cons x xs ih =>
    have := List.length_pos_iff.2 (hf x)
    simp only [List.flatMap_cons, List.length_append, List.length_cons]
    omega

/-! ## Elements -/

/-- What records bring together, each of them some elements. -/
def Element.ofRecords? {α : Type} [Element α] : List Record → Option (List α)
  | [] => some []
  | r :: rs =>
    match Element.read r.field with
    | .taken xs => (Element.ofRecords? rs).map (xs ++ ·)
    | _ => none

/-- The laws of an element type. -/
class LawfulElement (α : Type) [Element α] : Prop where
  ofRecords?_write : ∀ xs : List α, Element.ofRecords? (Element.write xs) = some xs
  write_bytes : ∀ (xs : List α), ∀ r ∈ Element.write xs, ∃ content, r = .bytes 1 content

theorem mem_packed {content : Bytes} {r : Record} (h : r ∈ packed content) :
    ∃ content, r = .bytes 1 content := by
  unfold packed at h
  split at h
  · simp at h
  · exact ⟨content, by simpa using h⟩

/-- A packed record brings what its content stands for, and its absence nothing. -/
theorem Element.ofRecords?_packed {α : Type} [Element α] {f : α → Bytes} {xs : List α}
    (hf : ∀ a, f a ≠ []) (h : Element.read (.bytes 1 (xs.flatMap f)) = .taken xs) :
    Element.ofRecords? (packed (xs.flatMap f)) = some xs := by
  unfold packed
  split
  · rename_i hnil
    have := length_le_flatMap hf xs
    rw [hnil] at this
    obtain rfl := List.length_eq_zero_iff.1 (Nat.le_zero.1 this)
    rfl
  · show (match Element.read (.bytes 1 (xs.flatMap f)) with
      | .taken ys => (Element.ofRecords? []).map (ys ++ ·)
      | _ => none) = some xs
    rw [h]
    simp [Element.ofRecords?]

/-- A packed record of numbers of one width brings the elements that the numbers are the bits of. -/
theorem Element.ofRecords?_fixedWidth {α : Type} [Element α] {width : Nat} {bits : α → Nat}
    {ofBits : Nat → α} (hwidth : 0 < width) (hbits : ∀ a, bits a < Nat.pow 256 width)
    (hback : ∀ a, ofBits (bits a) = a)
    (hread : ∀ content, Element.read (.bytes 1 content) =
      Reading.ofPacked ((FixedWidth.readAll? width content.length content).map (·.map ofBits)))
    (xs : List α) :
    Element.ofRecords? (packed (xs.flatMap fun x => FixedWidth.encode width (bits x))) =
      some xs := by
  have hf (x : α) : FixedWidth.encode width (bits x) ≠ [] := FixedWidth.encode_ne_nil hwidth _
  have hcontent : (xs.flatMap fun x => FixedWidth.encode width (bits x)) =
      (xs.map bits).flatMap (FixedWidth.encode width) := by rw [List.flatMap_map]
  have hmap : (xs.map bits).map ofBits = xs := by
    simp [List.map_map, Function.comp_def, hback]
  refine Element.ofRecords?_packed hf ?_
  have hlen := length_le_flatMap hf xs
  rw [hcontent] at hlen
  rw [hread, hcontent, FixedWidth.readAll?_flatMap_encode hwidth
    (List.forall_mem_map.2 fun x _ => hbits x) (by simpa using hlen), Option.map_some, hmap]
  rfl

/-- Records of one element each bring these elements. -/
theorem Element.ofRecords?_each {α : Type} [Element α] {f : α → Bytes}
    (h : ∀ a, Element.read (.bytes 1 (f a)) = .taken [a]) (xs : List α) :
    Element.ofRecords? (xs.map fun a => Record.bytes 1 (f a)) = some xs := by
  induction xs with
  | nil => rfl
  | cons x xs ih =>
    show (match Element.read (.bytes 1 (f x)) with
      | .taken ys => (Element.ofRecords? (xs.map fun a => Record.bytes 1 (f a))).map (ys ++ ·)
      | _ => none) = some (x :: xs)
    rw [h, ih]
    rfl

instance {α : Type} [VarintCoded α] [LawfulVarintCoded α] : LawfulElement α where
  ofRecords?_write xs := by
    have hf (a : α) := Varint.encode_ne_nil (VarintCoded.toVarint a).toNat
    have hcontent : (xs.flatMap fun x => Varint.encode (VarintCoded.toVarint x).toNat) =
        (xs.map VarintCoded.toVarint).flatMap fun v => Varint.encode v.toNat := by
      rw [List.flatMap_map]
    have hback : (xs.map VarintCoded.toVarint).map VarintCoded.ofVarint = xs := by
      simp [List.map_map, Function.comp_def, LawfulVarintCoded.ofVarint_toVarint]
    refine Element.ofRecords?_packed hf ?_
    have hlen := length_le_flatMap hf xs
    simp only [Element.read]
    rw [hcontent] at hlen ⊢
    rw [Varint.readAll?_flatMap_encode (by simpa using hlen), Option.map_some, hback]
    rfl
  write_bytes _ _ := mem_packed

instance : LawfulElement Double where
  ofRecords?_write xs := by
    refine Element.ofRecords?_fixedWidth (by decide) (fun x => x.bits.toNat_lt) (fun x => ?_)
      (fun _ => rfl) xs
    rw [UInt64.ofNat_toNat]
  write_bytes _ _ := mem_packed

instance : LawfulElement Single where
  ofRecords?_write xs := by
    refine Element.ofRecords?_fixedWidth (by decide) (fun x => x.bits.toNat_lt) (fun x => ?_)
      (fun _ => rfl) xs
    rw [UInt32.ofNat_toNat]
  write_bytes _ _ := mem_packed

instance : LawfulElement Bytes where
  ofRecords?_write xs := Element.ofRecords?_each (f := fun b => b) (fun _ => rfl) xs
  write_bytes xs r hr := by
    obtain ⟨b, -, rfl⟩ := List.mem_map.1 hr
    exact ⟨b, rfl⟩

instance : LawfulElement String where
  ofRecords?_write xs := by
    refine Element.ofRecords?_each (f := Utf8.encode) (fun s => ?_) xs
    simp only [Element.read, Utf8.decode?_encode]
    rfl
  write_bytes xs r hr := by
    obtain ⟨s, -, rfl⟩ := List.mem_map.1 hr
    exact ⟨_, rfl⟩

/-! ## List messages -/

namespace ListMessage

variable {α : Type} [Element α]

theorem absorb_taken {r : Record} {xs : List α} (h : Element.read r.field = .taken xs)
    (m : ListMessage α) :
    Message.absorb m r = some { m with items := m.items ++ xs } := by
  simp only [Message.absorb, h]

theorem absorb_foreign {r : Record} (h : Element.read (α := α) r.field = .foreign)
    (m : ListMessage α) :
    Message.absorb m r = some { m with unknown := m.unknown ++ [r] } := by
  simp only [Message.absorb, h]

theorem absorb_malformed {r : Record} (h : Element.read (α := α) r.field = .malformed)
    (m : ListMessage α) : Message.absorb m r = none := by
  simp only [Message.absorb, h]

/-- Records that bring elements add them to a list in order. -/
theorem foldlM_absorb_ofRecords? {rs : List Record} {xs : List α}
    (h : Element.ofRecords? rs = some xs) (m : ListMessage α) :
    rs.foldlM Message.absorb m = some { m with items := m.items ++ xs } := by
  induction rs generalizing m xs with
  | nil =>
    obtain rfl : [] = xs := by simpa [Element.ofRecords?] using h
    simp
  | cons r rs ih =>
    rw [Element.ofRecords?] at h
    cases hr : Element.read (α := α) r.field with
    | taken ys =>
      simp only [hr, Option.map_eq_some_iff] at h
      obtain ⟨zs, hzs, rfl⟩ := h
      rw [List.foldlM_cons, absorb_taken hr]
      show rs.foldlM Message.absorb ({ m with items := m.items ++ ys } : ListMessage α) = _
      rw [ih hzs, List.append_assoc]
    | foreign => simp [hr] at h
    | malformed => simp [hr] at h

instance [LawfulElement α] : LawfulMessage (ListMessage α) where
  unknown m := m.unknown
  setUnknown m u := { m with unknown := u }
  unknown_setUnknown _ _ := rfl
  setUnknown_setUnknown _ _ _ := rfl
  setUnknown_unknown _ := rfl
  known m := Element.write m.items
  Parts _ := True
  records_eq _ := rfl
  parts_setUnknown := id
  parts_empty := trivial
  unknown_empty := rfl
  absorb_cases {m m' r} _ hr h := by
    cases hread : Element.read (α := α) r.field with
    | taken xs =>
      rw [absorb_taken hread, Option.some.injEq] at h
      subst h
      exact .inl ⟨trivial, rfl⟩
    | foreign =>
      rw [absorb_foreign hread, Option.some.injEq] at h
      subst h
      exact .inr ⟨r, fun _ => ⟨hr, absorb_foreign hread⟩, rfl⟩
    | malformed => simp [absorb_malformed hread] at h
  wellFormed_known hr hlen := by
    obtain ⟨content, rfl⟩ := LawfulElement.write_bytes _ _ hr
    exact Message.wellFormed_bytes (by decide) hlen
  rebuild {m} _ _ := foldlM_absorb_ofRecords? (LawfulElement.ofRecords?_write m.items) _

end ListMessage

end OnlineFeatures
