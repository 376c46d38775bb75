import OnlineFeatures.Proofs.Wire.Spelling

/-!
# Lawful messages

What a message type owes to the wire, stated once for all types, and what follows from it: a message
that was built from valid parts or read from bytes is given back by its own serialisation.

A message has known fields and, beside them, records it keeps without knowing their meaning. A type
is lawful (`LawfulMessage`) when one more record either goes into a known field or is kept, and when
the records of the known fields alone give those fields again. The rest is the same for every type:

* `Message.decode?_encode` — a valid message is read from its own serialisation.
* `Message.valid_of_decode?` — whatever is read is valid.

Kept records carry the argument: they are well formed and stay foreign to the type when they are
read again (`Message.Kept`), so they come back behind the known fields, in order.

The wire counts a length in 31 bits, so all of this is said of messages shorter than
`Message.sizeLimit`; there is no way to embed or to send a longer one.
-/

namespace OnlineFeatures

/-! ## Validity -/

/-- The length that every message on the wire stays below. -/
def Message.sizeLimit : Nat := 0x80000000

/-- A message type with a place for the records that have no meaning for it. -/
class KeepsUnknown (μ : Type) where
  unknown : μ → List Record
  setUnknown : μ → List Record → μ
  unknown_setUnknown : ∀ m u, unknown (setUnknown m u) = u
  setUnknown_setUnknown : ∀ m u v, setUnknown (setUnknown m u) v = setUnknown m v
  setUnknown_unknown : ∀ m, setUnknown m (unknown m) = m

namespace Message

variable {μ : Type} [Message μ]

/-- A message short enough for the wire. -/
def WithinLimit (m : μ) : Prop := (encode m).length < sizeLimit

section Keeping

variable [KeepsUnknown μ]

/-- The message with one more record kept. -/
def keep (m : μ) (r : Record) : μ :=
  KeepsUnknown.setUnknown m (KeepsUnknown.unknown m ++ [r])

/-- A record in which no message of the type sees one of its own fields. -/
def Foreign (μ : Type) [Message μ] [KeepsUnknown μ] (r : Record) : Prop :=
  ∀ m : μ, absorb m r = some (keep m r)

/-- A record as messages of the type keep it: one that can be read again and is foreign then too.
Beyond the limit nothing can be read, so nothing is asked there. -/
def Kept (μ : Type) [Message μ] [KeepsUnknown μ] (r : Record) : Prop :=
  r.spelling.length < sizeLimit → r.WellFormed ∧ Foreign μ r

end Keeping

end Message

/-- The laws of a message type. -/
class LawfulMessage (μ : Type) [Message μ] extends KeepsUnknown μ where
  /-- The records of the known fields. -/
  known : μ → List Record
  /-- What the known fields hold is valid. -/
  Parts : μ → Prop
  records_eq : ∀ m, Message.records m = known m ++ unknown m
  parts_setUnknown : ∀ {m u}, Parts m → Parts (setUnknown m u)
  parts_empty : Parts Message.empty
  unknown_empty : unknown Message.empty = []
  /-- A record goes into a known field or is kept, perhaps spelled anew. -/
  absorb_cases : ∀ {m m' r}, Parts m → r.WellFormed → Message.absorb m r = some m' →
    (Parts m' ∧ unknown m' = unknown m) ∨ ∃ r', Message.Kept μ r' ∧ m' = Message.keep m r'
  /-- The records of the known fields can be read. -/
  wellFormed_known : ∀ {m r}, r ∈ known m → r.spelling.length < Message.sizeLimit → r.WellFormed
  /-- The records of the known fields give these fields. -/
  rebuild : ∀ {m}, Parts m → (∀ r ∈ known m, r.spelling.length < Message.sizeLimit) →
    (known m).foldlM Message.absorb Message.empty = some (setUnknown m [])

namespace Message

variable {μ : Type} [Message μ]

/-- A message that may have been built or read: its parts are valid, and what it keeps is foreign to
its type. -/
structure Valid [LawfulMessage μ] (m : μ) : Prop where
  parts : LawfulMessage.Parts m
  kept : ∀ r ∈ KeepsUnknown.unknown m, Kept μ r

/-! ## Lengths -/

theorem spelling_length_le {rs : List Record} {r : Record} (h : r ∈ rs) :
    r.spelling.length ≤ (Record.writeAll rs).length := by
  induction rs with
  | nil => simp at h
  | cons s rs ih =>
    simp only [Record.writeAll, List.flatMap_cons, List.length_append]
    rcases List.mem_cons.1 h with rfl | h
    · omega
    · have := ih h
      simp only [Record.writeAll] at this
      omega

theorem length_encode_le_nested (number : Nat) (m : μ) :
    (encode m).length ≤ (nested number m).spelling.length := by
  simp only [nested, Record.bytes, List.length_append]
  omega

/-- A record of bytes is well formed when its spelling is short enough. -/
theorem wellFormed_bytes {number : Nat} (hn : Tag.Fits number) {content : Bytes}
    (h : (Record.bytes number content).spelling.length < sizeLimit) :
    (Record.bytes number content).WellFormed := by
  refine Record.wellFormed_bytes hn ?_
  simp only [Record.bytes, List.length_append, sizeLimit] at h
  omega

/-! ## Taking up records -/

/-- Records of one field after those of another. -/
theorem foldlM_absorb_append {rs ss : List Record} {m m' m'' : μ}
    (hrs : rs.foldlM absorb m = some m') (hss : ss.foldlM absorb m' = some m'') :
    (rs ++ ss).foldlM absorb m = some m'' := by
  rw [List.foldlM_append, hrs]
  exact hss

/-- Records that fill one slot of a message, each by the same step. -/
theorem foldlM_absorb_slot {σ α : Type} (slot : σ → μ) (put : σ → α → σ) (record : α → Record)
    {xs : List α} (h : ∀ s, ∀ x ∈ xs, absorb (slot s) (record x) = some (slot (put s x))) (s : σ) :
    (xs.map record).foldlM absorb (slot s) = some (slot (xs.foldl put s)) := by
  induction xs generalizing s with
  | nil => rfl
  | cons x xs ih =>
    obtain ⟨hx, hxs⟩ : absorb (slot s) (record x) = some (slot (put s x)) ∧
        ∀ s, ∀ y ∈ xs, absorb (slot s) (record y) = some (slot (put s y)) :=
      ⟨h s x List.mem_cons_self, fun s y hy => h s y (List.mem_cons_of_mem _ hy)⟩
    rw [List.map_cons, List.foldlM_cons, hx]
    exact ih hxs (put s x)

/-- What holds of a message and is kept by each record of some kind holds of what is read from such
records. -/
theorem foldlM_absorb_invariant {P : μ → Prop} {Q : Record → Prop} {rs : List Record}
    (hrs : ∀ r ∈ rs, Q r) (hstep : ∀ {m m' r}, P m → Q r → absorb m r = some m' → P m') {m m' : μ}
    (hm : P m) (h : rs.foldlM absorb m = some m') : P m' := by
  induction rs generalizing m with
  | nil =>
    obtain rfl : m = m' := by simpa using h
    exact hm
  | cons r rs ih =>
    obtain ⟨hr, hrs⟩ := List.forall_mem_cons.1 hrs
    rw [List.foldlM_cons] at h
    obtain ⟨next, habs, hrest⟩ := Option.bind_eq_some_iff.1 h
    exact ih hrs (hstep hm hr habs) hrest

section Keeping

variable [KeepsUnknown μ]

/-- A record that is foreign to the type is kept as it is. -/
theorem keeps_of_foreign {m m' : μ} {r : Record} (hr : r.WellFormed) (hforeign : Foreign μ r)
    (h : absorb m r = some m') : ∃ r', Kept μ r' ∧ m' = keep m r' := by
  refine ⟨r, fun _ => ⟨hr, hforeign⟩, ?_⟩
  rw [hforeign m] at h
  exact (Option.some.inj h).symm

/-- Foreign records are kept in order. -/
theorem foldlM_absorb_foreign {rs : List Record} (h : ∀ r ∈ rs, Foreign μ r) (m : μ) :
    rs.foldlM absorb m = some (KeepsUnknown.setUnknown m (KeepsUnknown.unknown m ++ rs)) := by
  induction rs generalizing m with
  | nil => simp [KeepsUnknown.setUnknown_unknown]
  | cons r rs ih =>
    obtain ⟨hr, hrs⟩ := List.forall_mem_cons.1 h
    rw [List.foldlM_cons, hr m]
    show rs.foldlM absorb (keep m r) = _
    rw [ih hrs, keep, KeepsUnknown.unknown_setUnknown, KeepsUnknown.setUnknown_setUnknown,
      List.append_assoc, List.singleton_append]

/-- A message is read from records that give its known fields, with foreign ones behind them. -/
theorem decode?_writeAll {known kept : List Record} {m : μ}
    (hknown : ∀ r ∈ known, r.WellFormed) (hm : known.foldlM absorb empty = some m)
    (hnone : KeepsUnknown.unknown m = []) (hkept : ∀ r ∈ kept, r.WellFormed ∧ Foreign μ r) :
    decode? (Record.writeAll (known ++ kept)) = some (KeepsUnknown.setUnknown m kept) := by
  have hwf : ∀ r ∈ known ++ kept, r.WellFormed :=
    List.forall_mem_append.2 ⟨hknown, fun r hr => (hkept r hr).1⟩
  rw [decode?, mergeFrom, Record.readAll?_eq_some_iff.2 ⟨rfl, hwf⟩]
  show (known ++ kept).foldlM absorb empty = _
  rw [List.foldlM_append, hm]
  show kept.foldlM absorb m = _
  rw [foldlM_absorb_foreign (fun r hr => (hkept r hr).2), hnone, List.nil_append]

end Keeping

/-! ## The round trip -/

section Lawful

variable [LawfulMessage μ]

theorem valid_empty : Valid (empty : μ) :=
  ⟨LawfulMessage.parts_empty, by simp [LawfulMessage.unknown_empty]⟩

theorem valid_absorb {m m' : μ} {r : Record} (hm : Valid m) (hr : r.WellFormed)
    (h : absorb m r = some m') : Valid m' := by
  rcases LawfulMessage.absorb_cases hm.parts hr h with ⟨hparts, hunknown⟩ | ⟨r', hr', rfl⟩
  · exact ⟨hparts, hunknown ▸ hm.kept⟩
  · refine ⟨LawfulMessage.parts_setUnknown hm.parts, ?_⟩
    rw [keep, KeepsUnknown.unknown_setUnknown]
    exact List.forall_mem_append.2 ⟨hm.kept, by simpa using hr'⟩

theorem valid_mergeFrom {m m' : μ} {bs : Bytes} (hm : Valid m) (h : mergeFrom m bs = some m') :
    Valid m' := by
  obtain ⟨rs, hrs, hfold⟩ := Option.bind_eq_some_iff.1 h
  exact foldlM_absorb_invariant (Record.readAll?_eq_some_iff.1 hrs).2 valid_absorb hm hfold

/-- Whatever is read is valid. -/
theorem valid_of_decode? {m : μ} {bs : Bytes} (h : decode? bs = some m) : Valid m :=
  valid_mergeFrom valid_empty h

/-- A valid message is read from its own serialisation. -/
theorem decode?_encode {m : μ} (hm : Valid m) (hlimit : WithinLimit m) :
    decode? (encode m) = some m := by
  have hlength : ∀ r ∈ LawfulMessage.known m ++ KeepsUnknown.unknown m,
      r.spelling.length < sizeLimit := by
    intro r hr
    rw [← LawfulMessage.records_eq] at hr
    exact Nat.lt_of_le_of_lt (spelling_length_le hr) hlimit
  obtain ⟨hknown, hkept⟩ := List.forall_mem_append.1 hlength
  rw [encode, LawfulMessage.records_eq,
    decode?_writeAll (fun r hr => LawfulMessage.wellFormed_known hr (hknown r hr))
      (LawfulMessage.rebuild hm.parts hknown) (KeepsUnknown.unknown_setUnknown m [])
      (fun r hr => hm.kept r hr (hkept r hr)),
    KeepsUnknown.setUnknown_setUnknown, KeepsUnknown.setUnknown_unknown]

/-- A valid message is read from the record that embeds it. -/
theorem decode?_nested {m : μ} {number : Nat} (hm : Valid m)
    (h : (nested number m).spelling.length < sizeLimit) : decode? (encode m) = some m :=
  decode?_encode hm (Nat.lt_of_le_of_lt (length_encode_le_nested number m) h)

/-- The records of a repeated field of messages give the field. -/
theorem foldlM_absorb_nested {ν : Type} [Message ν] {number : Nat} {xs : List μ}
    (slot : List μ → ν)
    (hslot : ∀ s content x, decode? content = some x →
      absorb (slot s) (.bytes number content) = some (slot (s ++ [x])))
    (hvalid : ∀ x ∈ xs, Valid x)
    (hlen : ∀ r ∈ xs.map (nested number), r.spelling.length < sizeLimit) :
    (xs.map (nested number)).foldlM absorb (slot []) = some (slot xs) := by
  have hsnoc : xs.foldl (fun s x => s ++ [x]) [] = xs := by simp [← List.flatMap_def]
  rw [foldlM_absorb_slot slot (fun s x => s ++ [x]), hsnoc]
  intro s x hx
  exact hslot s _ x (decode?_nested (hvalid x hx) (hlen _ (List.mem_map_of_mem hx)))

end Lawful

end Message

end OnlineFeatures
