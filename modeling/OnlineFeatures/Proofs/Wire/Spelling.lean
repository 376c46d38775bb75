import OnlineFeatures.Wire.Message

/-!
# Spellings

A reader of the wire decides from the bytes that it takes: what follows them changes neither what is
read nor how much is taken. So a record that was read once can be read again from its own spelling,
wherever that spelling is put.

* `SelfDelimiting` — a reader decides from the bytes it takes.
* `Record.WellFormed` — a record's spelling reads back as the record.
* `Record.readAll?_eq_some_iff` — a sequence of records is read from the concatenation of their
  spellings, each well formed, and from nothing else.

Groups are the one place where the readers carry fuel. `Field.readWith?_spelled` says how much of it
a spelling of a given length needs, by one induction for records and for the insides of groups
together.
-/

namespace OnlineFeatures

/-- A reader that decides from the bytes it takes, whatever follows them. -/
def SelfDelimiting {α : Type} (read : Bytes → Option (α × Bytes)) : Prop :=
  ∀ bs a rest, read bs = some (a, rest) →
    ∃ used, bs = used ++ rest ∧ ∀ more, read (used ++ more) = some (a, more)

namespace SelfDelimiting

variable {α β : Type} {read : Bytes → Option (α × Bytes)}

theorem map (h : SelfDelimiting read) (f : α → β) :
    SelfDelimiting fun bs => (read bs).map fun (a, rest) => (f a, rest) := by
  intro bs b rest hb
  simp only [Option.map_eq_some_iff, Prod.exists, Prod.mk.injEq] at hb
  obtain ⟨a, rest', hr, rfl, rfl⟩ := hb
  obtain ⟨used, rfl, hused⟩ := h _ _ _ hr
  refine ⟨used, rfl, fun more => ?_⟩
  simp [hused more]

theorem filter (h : SelfDelimiting read) (p : α → Bool) :
    SelfDelimiting fun bs => (read bs).filter fun (a, _) => p a := by
  intro bs a rest ha
  obtain ⟨hr, hp⟩ := Option.filter_eq_some_iff.1 ha
  obtain ⟨used, rfl, hused⟩ := h _ _ _ hr
  refine ⟨used, rfl, fun more => ?_⟩
  show (read (used ++ more)).filter _ = _
  rw [hused more]
  exact Option.filter_eq_some_iff.2 ⟨rfl, hp⟩

end SelfDelimiting

/-! ## Numbers -/

theorem Varint.selfDelimiting_read? (limit : Nat) : SelfDelimiting (Varint.read? limit) := by
  induction limit with
  | zero => intro bs n rest h; simp [Varint.read?] at h
  | succ limit ih =>
    intro bs n rest h
    cases bs with
    | nil => simp [Varint.read?] at h
    | cons b bs =>
      rw [Varint.read?] at h
      by_cases hb : b.toNat < 128
      · simp only [hb, if_true, Option.some.injEq, Prod.mk.injEq] at h
        obtain ⟨rfl, rfl⟩ := h
        exact ⟨[b], rfl, fun more => by simp [Varint.read?, hb]⟩
      · simp only [hb, if_false] at h
        obtain ⟨used, rfl, hused⟩ := ih.map (fun m => b.toNat - 128 + 128 * m) _ _ _ h
        refine ⟨b :: used, rfl, fun more => ?_⟩
        rw [List.cons_append, Varint.read?, if_neg hb]
        exact hused more

theorem Varint.selfDelimiting_readValue? : SelfDelimiting Varint.readValue? :=
  (Varint.selfDelimiting_read? _).map _

theorem Varint.selfDelimiting_readLength? : SelfDelimiting Varint.readLength? :=
  (Varint.selfDelimiting_read? Varint.shortLimit).filter fun n => decide (n < 0x80000000)

theorem FixedWidth.selfDelimiting_read? (width : Nat) :
    SelfDelimiting (FixedWidth.read? width) := by
  induction width with
  | zero =>
    intro bs n rest h
    simp only [FixedWidth.read?, Option.some.injEq, Prod.mk.injEq] at h
    obtain ⟨rfl, rfl⟩ := h
    exact ⟨[], rfl, fun more => rfl⟩
  | succ width ih =>
    intro bs n rest h
    cases bs with
    | nil => simp [FixedWidth.read?] at h
    | cons b bs =>
      obtain ⟨used, rfl, hused⟩ := ih.map (fun m => b.toNat + 256 * m) _ _ _ h
      exact ⟨b :: used, rfl, hused⟩

/-- A written value is read back, whatever follows it. -/
theorem Varint.readValue?_encode (v : UInt64) (rest : Bytes) :
    Varint.readValue? (Varint.encode v.toNat ++ rest) = some (v, rest) := by
  have hv : v.toNat < Nat.pow 128 (9 + 1) := Nat.lt_of_lt_of_le v.toNat_lt (by decide)
  rw [Varint.readValue?, Varint.valueLimit, Varint.read?_encode 9 _ _ hv]
  simp

/-- A written length is read back if it fits. -/
theorem Varint.readLength?_encode {n : Nat} (h : n < 0x80000000) (rest : Bytes) :
    Varint.readLength? (Varint.encode n ++ rest) = some (n, rest) := by
  have hn : n < Nat.pow 128 (4 + 1) := Nat.lt_trans h (by decide)
  rw [Varint.readLength?, Varint.shortLimit, Varint.read?_encode 4 _ _ hn]
  exact Option.filter_eq_some_iff.2 ⟨rfl, by simpa using h⟩

theorem Varint.encode_ne_nil (n : Nat) : Varint.encode n ≠ [] := by
  rw [Varint.encode]
  split <;> simp

/-! ## Tags and plain payloads -/

instance (number : Nat) : Decidable (Tag.Fits number) := inferInstanceAs (Decidable (_ ∧ _))

theorem Tag.read?_nil : Tag.read? [] = none := rfl

theorem Tag.selfDelimiting_read? : SelfDelimiting fun bs =>
    (Tag.read? bs).map fun (number, kind, rest) => ((number, kind), rest) := by
  intro bs tag rest h
  simp only [Option.map_eq_some_iff, Prod.exists, Prod.mk.injEq] at h
  obtain ⟨number, kind, rest', h, rfl, rfl⟩ := h
  unfold Tag.read? at h
  cases hr : Varint.read? Varint.shortLimit bs with
  | none => simp [hr] at h
  | some p =>
    obtain ⟨code, rest''⟩ := p
    by_cases hc : code < 0x100000000 ∧ 8 ≤ code
    · simp only [hr, if_pos hc, Option.map_eq_some_iff, Prod.mk.injEq] at h
      obtain ⟨kind', hk, rfl, rfl, rfl⟩ := h
      obtain ⟨used, rfl, hused⟩ := Varint.selfDelimiting_read? _ _ _ _ hr
      refine ⟨used, rfl, fun more => ?_⟩
      simp only [Tag.read?, hused more, if_pos hc, hk, Option.map_some]
    · simp only [hr, if_neg hc, reduceCtorEq] at h

/-- The bytes of a tag that was read, which stand for it before anything. -/
theorem Tag.spelled_of_read? {bs rest : Bytes} {number : Nat} {kind : WireKind}
    (h : Tag.read? bs = some (number, kind, rest)) :
    ∃ used, used ≠ [] ∧ bs = used ++ rest ∧
      ∀ more, Tag.read? (used ++ more) = some (number, kind, more) := by
  obtain ⟨used, rfl, hused⟩ := Tag.selfDelimiting_read? bs (number, kind) rest (by simp [h])
  have hread (more : Bytes) : Tag.read? (used ++ more) = some (number, kind, more) := by
    have := hused more
    simp only [Option.map_eq_some_iff, Prod.exists, Prod.mk.injEq] at this
    obtain ⟨_, _, _, hr, ⟨rfl, rfl⟩, rfl⟩ := this
    exact hr
  refine ⟨used, ?_, rfl, hread⟩
  rintro rfl
  have := hread []
  simp [Tag.read?_nil] at this

theorem Field.selfDelimiting_readPlain? (number : Nat) (kind : WireKind) :
    SelfDelimiting (Field.readPlain? number kind) := by
  cases kind with
  | varint => exact Varint.selfDelimiting_readValue?.map _
  | fixed64 => exact (FixedWidth.selfDelimiting_read? 8).map fun n =>
    Field.fixed64 number (.ofNat n)
  | fixed32 => exact (FixedWidth.selfDelimiting_read? 4).map fun n =>
    Field.fixed32 number (.ofNat n)
  | groupStart => intro bs f rest h; simp [Field.readPlain?] at h
  | groupEnd => intro bs f rest h; simp [Field.readPlain?] at h
  | bytes =>
    intro bs f rest h
    simp only [Field.readPlain?] at h
    cases hr : Varint.readLength? bs with
    | none => simp [hr] at h
    | some p =>
      obtain ⟨size, rest'⟩ := p
      simp only [hr] at h
      by_cases hs : size ≤ rest'.length
      · simp only [if_pos hs, Option.some.injEq, Prod.mk.injEq] at h
        obtain ⟨rfl, rfl⟩ := h
        -- the length tells where the content ends, whatever stands behind it
        obtain ⟨used, rfl, hused⟩ := Varint.selfDelimiting_readLength? _ _ _ hr
        have htake : (rest'.take size).length = size := by simp [hs]
        refine ⟨used ++ rest'.take size, by simp, fun more => ?_⟩
        simp only [Field.readPlain?, List.append_assoc, hused]
        rw [if_pos (by simp; omega), List.take_left' htake, List.drop_left' htake]
      · simp [if_neg hs] at h

/-! ## Records and groups -/

/-- A record is a plain one behind its tag, or a group. -/
theorem Field.readWith?_cases {fuel : Nat} {bs rest : Bytes} {f : Field}
    (h : Field.readWith? (fuel + 1) bs = some (f, rest)) :
    (∃ number kind afterTag, Tag.read? bs = some (number, kind, afterTag) ∧
        kind ≠ .groupStart ∧ Field.readPlain? number kind afterTag = some (f, rest)) ∨
      ∃ number afterTag fs, Tag.read? bs = some (number, .groupStart, afterTag) ∧
        Field.readGroup? fuel number afterTag = some (fs, rest) ∧ f = .group number fs := by
  cases ht : Tag.read? bs with
  | none => simp [Field.readWith?, ht] at h
  | some tag =>
    obtain ⟨number, kind, afterTag⟩ := tag
    cases kind with
    | groupStart =>
      simp only [Field.readWith?, ht, Option.map_eq_some_iff, Prod.exists, Prod.mk.injEq] at h
      obtain ⟨fs, _, hg, rfl, rfl⟩ := h
      exact .inr ⟨number, afterTag, fs, rfl, hg, rfl⟩
    | _ =>
      rw [Field.readWith?, ht] at h
      exact .inl ⟨_, _, _, rfl, by simp, h⟩

theorem Field.readWith?_plain {bs afterTag : Bytes} {number : Nat} {kind : WireKind}
    (ht : Tag.read? bs = some (number, kind, afterTag)) (hk : kind ≠ .groupStart) (fuel : Nat) :
    Field.readWith? (fuel + 1) bs = Field.readPlain? number kind afterTag := by
  rw [Field.readWith?, ht]
  cases kind <;> first | rfl | exact absurd rfl hk

theorem Field.readWith?_group {bs afterTag rest : Bytes} {fuel number : Nat} {fs : List Field}
    (ht : Tag.read? bs = some (number, .groupStart, afterTag))
    (hg : Field.readGroup? fuel number afterTag = some (fs, rest)) :
    Field.readWith? (fuel + 1) bs = some (.group number fs, rest) := by
  rw [Field.readWith?, ht]
  simp [hg]

/-- What begins a record is never an end tag. -/
theorem Field.tag_of_readWith? {fuel : Nat} {bs rest : Bytes} {f : Field}
    (h : Field.readWith? fuel bs = some (f, rest)) :
    ∃ number kind afterTag, Tag.read? bs = some (number, kind, afterTag) ∧ kind ≠ .groupEnd := by
  cases fuel with
  | zero => simp [Field.readWith?] at h
  | succ fuel =>
    rcases Field.readWith?_cases h with ⟨number, kind, afterTag, ht, -, hp⟩ | ⟨_, _, _, ht, -, -⟩
    · refine ⟨number, kind, afterTag, ht, ?_⟩
      rintro rfl
      simp [Field.readPlain?] at hp
    · exact ⟨_, _, _, ht, by simp⟩

/-- The inside of a group is its end tag, or a record with more of the inside behind it. -/
theorem Field.readGroup?_cases {fuel number : Nat} {bs rest : Bytes} {fs : List Field}
    (h : Field.readGroup? (fuel + 1) number bs = some (fs, rest)) :
    (Tag.read? bs = some (number, .groupEnd, rest) ∧ fs = []) ∨
      ∃ f afterField fs', Field.readWith? fuel bs = some (f, afterField) ∧
        Field.readGroup? fuel number afterField = some (fs', rest) ∧ fs = f :: fs' := by
  rw [Field.readGroup?] at h
  split at h
  · rename_i found afterTag ht
    by_cases hfound : found = number
    · subst hfound
      simp only [if_true, Option.some.injEq, Prod.mk.injEq] at h
      obtain ⟨rfl, rfl⟩ := h
      exact .inl ⟨ht, rfl⟩
    · simp [hfound] at h
  · cases hf : Field.readWith? fuel bs with
    | none => simp [hf] at h
    | some p =>
      obtain ⟨f, afterField⟩ := p
      simp only [hf, Option.map_eq_some_iff, Prod.exists, Prod.mk.injEq] at h
      obtain ⟨fs', _, hg, rfl, rfl⟩ := h
      exact .inr ⟨f, afterField, fs', rfl, hg, rfl⟩

theorem Field.readGroup?_end {bs rest : Bytes} {number : Nat}
    (ht : Tag.read? bs = some (number, .groupEnd, rest)) (fuel : Nat) :
    Field.readGroup? (fuel + 1) number bs = some ([], rest) := by
  rw [Field.readGroup?, ht]
  simp

theorem Field.readGroup?_cons {fuel number : Nat} {bs afterField rest : Bytes} {f : Field}
    {fs : List Field} (hf : Field.readWith? fuel bs = some (f, afterField))
    (hg : Field.readGroup? fuel number afterField = some (fs, rest)) :
    Field.readGroup? (fuel + 1) number bs = some (f :: fs, rest) := by
  obtain ⟨found, kind, afterTag, ht, hk⟩ := Field.tag_of_readWith? hf
  rw [Field.readGroup?, ht]
  cases kind <;> first | exact absurd rfl hk | simp [hf, hg]

/-- A reader with fuel took `a`, and would take it again before anything, with fuel twice what it
took less a saving. -/
def SpelledWithin {α : Type} (read : Nat → Bytes → Option (α × Bytes)) (saving : Nat)
    (bs : Bytes) (a : α) (rest : Bytes) : Prop :=
  ∃ used, used ≠ [] ∧ bs = used ++ rest ∧
    ∀ fuel more, 2 * used.length ≤ fuel + saving → read fuel (used ++ more) = some (a, more)

mutual

/-- A record takes fuel twice its length at most. -/
theorem Field.readWith?_spelled : ∀ {fuel : Nat} {bs rest : Bytes} {f : Field},
    Field.readWith? fuel bs = some (f, rest) →
      SpelledWithin Field.readWith? 0 bs f rest
  | 0, _, _, _, h => by simp [Field.readWith?] at h
  | fuel + 1, bs, rest, f, h => by
    rcases Field.readWith?_cases h with ⟨number, kind, afterTag, ht, hk, hp⟩ |
      ⟨number, afterTag, fs, ht, hg, rfl⟩
    · obtain ⟨tag, hne, rfl, htag⟩ := Tag.spelled_of_read? ht
      obtain ⟨used, rfl, hused⟩ := Field.selfDelimiting_readPlain? number kind _ _ _ hp
      refine ⟨tag ++ used, by simp [hne], by simp, fun fuel more hfuel => ?_⟩
      have hpos := List.length_pos_iff.2 hne
      simp only [List.length_append] at hfuel
      obtain ⟨fuel, rfl⟩ : ∃ n, fuel = n + 1 := ⟨fuel - 1, by omega⟩
      rw [List.append_assoc, Field.readWith?_plain (htag _) hk, hused more]
    · obtain ⟨tag, hne, rfl, htag⟩ := Tag.spelled_of_read? ht
      obtain ⟨used, -, rfl, hused⟩ := Field.readGroup?_spelled hg
      refine ⟨tag ++ used, by simp [hne], by simp, fun fuel more hfuel => ?_⟩
      have hpos := List.length_pos_iff.2 hne
      simp only [List.length_append] at hfuel
      obtain ⟨fuel, rfl⟩ : ∃ n, fuel = n + 1 := ⟨fuel - 1, by omega⟩
      rw [List.append_assoc]
      exact Field.readWith?_group (htag _) (hused fuel more (by omega))

/-- The inside of a group, its end tag included, takes one less. -/
theorem Field.readGroup?_spelled : ∀ {fuel number : Nat} {bs rest : Bytes} {fs : List Field},
    Field.readGroup? fuel number bs = some (fs, rest) →
      SpelledWithin (Field.readGroup? · number) 1 bs fs rest
  | 0, _, _, _, _, h => by simp [Field.readGroup?] at h
  | fuel + 1, number, bs, rest, fs, h => by
    rcases Field.readGroup?_cases h with ⟨ht, rfl⟩ | ⟨f, afterField, fs', hf, hg, rfl⟩
    · obtain ⟨tag, hne, rfl, htag⟩ := Tag.spelled_of_read? ht
      refine ⟨tag, hne, rfl, fun fuel more hfuel => ?_⟩
      have hpos := List.length_pos_iff.2 hne
      obtain ⟨fuel, rfl⟩ : ∃ n, fuel = n + 1 := ⟨fuel - 1, by omega⟩
      exact Field.readGroup?_end (htag more) fuel
    · obtain ⟨head, hhead, rfl, hreadHead⟩ := Field.readWith?_spelled hf
      obtain ⟨tail, htail, rfl, hreadTail⟩ := Field.readGroup?_spelled hg
      refine ⟨head ++ tail, by simp [hhead], by simp, fun fuel more hfuel => ?_⟩
      have hheadPos := List.length_pos_iff.2 hhead
      have htailPos := List.length_pos_iff.2 htail
      simp only [List.length_append] at hfuel
      obtain ⟨fuel, rfl⟩ : ∃ n, fuel = n + 1 := ⟨fuel - 1, by omega⟩
      rw [List.append_assoc]
      exact Field.readGroup?_cons (hreadHead fuel _ (by omega)) (hreadTail fuel more (by omega))

end

/-- A record that was read is read again from its spelling, whatever follows. -/
theorem Record.spelled_of_read? {bs rest : Bytes} {r : Record}
    (h : Record.read? bs = some (r, rest)) :
    r.spelling ≠ [] ∧ bs = r.spelling ++ rest ∧
      ∀ more, Record.read? (r.spelling ++ more) = some (r, more) := by
  simp only [Record.read?, Option.map_eq_some_iff, Prod.exists, Prod.mk.injEq] at h
  obtain ⟨f, rest', hf, rfl, rfl⟩ := h
  obtain ⟨used, hne, rfl, hused⟩ := Field.readWith?_spelled hf
  have htake (more : Bytes) : (used ++ more).take ((used ++ more).length - more.length) = used := by
    simp
  refine ⟨by simpa using hne, by simp, fun more => ?_⟩
  have hread : Field.read? (used ++ more) = some (f, more) :=
    hused _ more (by simp only [List.length_append]; omega)
  simp only [htake, Record.read?, hread, Option.map_some]

/-! ## Well-formed records -/

namespace Record

/-- The spelling of a record reads back as the record. -/
def WellFormed (r : Record) : Prop := read? r.spelling = some (r, [])

instance (r : Record) : Decidable r.WellFormed := inferInstanceAs (Decidable (_ = _))

theorem wellFormed_of_read? {bs rest : Bytes} {r : Record} (h : read? bs = some (r, rest)) :
    r.WellFormed := by
  have := (spelled_of_read? h).2.2 []
  rwa [List.append_nil] at this

theorem WellFormed.read? {r : Record} (h : r.WellFormed) (more : Bytes) :
    Record.read? (r.spelling ++ more) = some (r, more) :=
  (spelled_of_read? h).2.2 more

theorem WellFormed.spelling_ne_nil {r : Record} (h : r.WellFormed) : r.spelling ≠ [] :=
  (spelled_of_read? h).1

theorem read?_nil : read? [] = none := rfl

theorem readAllWith?_succ {fuel : Nat} {bs rest : Bytes} {r : Record}
    (h : read? bs = some (r, rest)) :
    readAllWith? (fuel + 1) bs = (readAllWith? fuel rest).map (r :: ·) := by
  cases bs with
  | nil => simp [read?_nil] at h
  | cons b bs => simp only [readAllWith?, h]

theorem wellFormed_of_readAllWith? {fuel : Nat} {bs : Bytes} {rs : List Record}
    (h : readAllWith? fuel bs = some rs) : writeAll rs = bs ∧ ∀ r ∈ rs, r.WellFormed := by
  induction fuel generalizing bs rs with
  | zero =>
    cases bs with
    | nil =>
      obtain rfl : [] = rs := by simpa [readAllWith?] using h
      exact ⟨rfl, by simp⟩
    | cons b bs => simp [readAllWith?] at h
  | succ fuel ih =>
    cases hr : read? bs with
    | none =>
      cases bs with
      | nil =>
        obtain rfl : [] = rs := by simpa [readAllWith?] using h
        exact ⟨rfl, by simp⟩
      | cons b bs => simp [readAllWith?, hr] at h
    | some p =>
      obtain ⟨r, rest⟩ := p
      rw [readAllWith?_succ hr, Option.map_eq_some_iff] at h
      obtain ⟨rs', hrest, rfl⟩ := h
      obtain ⟨hwrite, hwf⟩ := ih hrest
      refine ⟨?_, List.forall_mem_cons.2 ⟨wellFormed_of_read? hr, hwf⟩⟩
      rw [(spelled_of_read? hr).2.1, ← hwrite]
      rfl

theorem readAllWith?_writeAll {fuel : Nat} {rs : List Record} (hwf : ∀ r ∈ rs, r.WellFormed)
    (hfuel : rs.length ≤ fuel) : readAllWith? fuel (writeAll rs) = some rs := by
  induction rs generalizing fuel with
  | nil => cases fuel <;> rfl
  | cons r rs ih =>
    obtain ⟨hr, hrs⟩ := List.forall_mem_cons.1 hwf
    rw [List.length_cons] at hfuel
    obtain ⟨fuel, rfl⟩ : ∃ n, fuel = n + 1 := ⟨fuel - 1, by omega⟩
    have hsplit : writeAll (r :: rs) = r.spelling ++ writeAll rs := rfl
    rw [hsplit, readAllWith?_succ (hr.read? _), ih hrs (by omega)]
    rfl

theorem length_le_writeAll {rs : List Record} (hwf : ∀ r ∈ rs, r.WellFormed) :
    rs.length ≤ (writeAll rs).length := by
  induction rs with
  | nil => simp
  | cons r rs ih =>
    obtain ⟨hr, hrs⟩ := List.forall_mem_cons.1 hwf
    have := ih hrs
    have := List.length_pos_iff.2 hr.spelling_ne_nil
    simp only [writeAll, List.flatMap_cons, List.length_append, List.length_cons] at *
    omega

/-- A sequence of records is read from the concatenation of well-formed spellings and from nothing
else. -/
theorem readAll?_eq_some_iff {bs : Bytes} {rs : List Record} :
    readAll? bs = some rs ↔ writeAll rs = bs ∧ ∀ r ∈ rs, r.WellFormed := by
  constructor
  · exact wellFormed_of_readAllWith?
  · rintro ⟨rfl, hwf⟩
    exact readAllWith?_writeAll hwf (length_le_writeAll hwf)

/-! ## The plain spelling -/

theorem wellFormed_plain {number : Nat} {kind : WireKind} {f : Field} {payload : Bytes}
    (hn : Tag.Fits number) (hk : kind ≠ .groupStart)
    (hp : Field.readPlain? number kind payload = some (f, [])) :
    WellFormed ⟨f, Tag.encode number kind ++ payload⟩ := by
  have hlen : 2 * (Tag.encode number kind ++ payload).length =
      2 * (Tag.encode number kind ++ payload).length - 1 + 1 := by
    have := List.length_pos_iff.2 (Varint.encode_ne_nil (Tag.code number kind))
    simp only [Tag.encode, List.length_append]
    omega
  have hread : Field.read? (Tag.encode number kind ++ payload) = some (f, []) := by
    rw [Field.read?, hlen, Field.readWith?_plain (Tag.read?_encode kind payload hn) hk, hp]
  simp only [WellFormed, Record.read?, hread, Option.map_some, List.length_nil, Nat.sub_zero,
    List.take_length]

theorem wellFormed_varint {number : Nat} (hn : Tag.Fits number) (v : UInt64) :
    (varint number v).WellFormed := by
  refine wellFormed_plain hn (by simp) ?_
  have := Varint.readValue?_encode v []
  rw [List.append_nil] at this
  simp [Field.readPlain?, this]

theorem wellFormed_fixed64 {number : Nat} (hn : Tag.Fits number) (v : UInt64) :
    (fixed64 number v).WellFormed := by
  refine wellFormed_plain hn (by simp) ?_
  have := FixedWidth.read?_encode 8 v.toNat [] v.toNat_lt
  rw [List.append_nil] at this
  simp [Field.readPlain?, this]

theorem wellFormed_fixed32 {number : Nat} (hn : Tag.Fits number) (v : UInt32) :
    (fixed32 number v).WellFormed := by
  refine wellFormed_plain hn (by simp) ?_
  have := FixedWidth.read?_encode 4 v.toNat [] v.toNat_lt
  rw [List.append_nil] at this
  simp [Field.readPlain?, this]

theorem wellFormed_bytes {number : Nat} (hn : Tag.Fits number) {content : Bytes}
    (hc : content.length < 0x80000000) : (bytes number content).WellFormed := by
  rw [bytes, List.append_assoc]
  refine wellFormed_plain hn (by simp) ?_
  simp [Field.readPlain?, Varint.readLength?_encode hc]

end Record

end OnlineFeatures
