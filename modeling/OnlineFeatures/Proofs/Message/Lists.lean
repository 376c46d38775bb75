import Mathlib.Data.List.Forall2
import Mathlib.Tactic.ByContra
import OnlineFeatures.Proofs.Message.Members

/-!
# What a list is read from

A list message is made of the elements that its own records bring: a record of a single element, or
a packed one that spells numbers in turn. Which elements a record brings (`ScalarType.Brings`) and
which records a list is made of (`ScalarType.MadeOf`) is said without the readers, and a payload is
read as a list exactly if its records make that list (`ListMessage.decode?_eq_some_iff`). A list
that is read on top of another one continues it (`ListMessage.mergeFrom_eq`).
-/

namespace OnlineFeatures

/-- Bytes that spell elements one after another. -/
inductive InTurn {α : Type} (spells : Bytes → α → Prop) : Bytes → List α → Prop
  | nil : InTurn spells [] []
  | cons {bs rest : Bytes} {a : α} {as : List α} :
      spells bs a → InTurn spells rest as → InTurn spells (bs ++ rest) (a :: as)

namespace ScalarType

/-- Whether bytes inside a packed record spell one number. -/
def Packs : (t : ScalarType) → Bytes → t.Carrier → Prop
  | bytes, _, _ | text, _, _ => False
  | int32, bs, i => ∃ v, Varint.readValue? bs = some (v, []) ∧ (VarintCoded.ofVarint v : Int32) = i
  | int64, bs, i => ∃ v, Varint.readValue? bs = some (v, []) ∧ (VarintCoded.ofVarint v : Int64) = i
  | double, bs, x => ∃ n, FixedWidth.read? 8 bs = some (n, []) ∧ Double.mk (.ofNat n) = x
  | float, bs, x => ∃ n, FixedWidth.read? 4 bs = some (n, []) ∧ Single.mk (.ofNat n) = x
  | bool, bs, b => ∃ v, Varint.readValue? bs = some (v, []) ∧ (VarintCoded.ofVarint v : Bool) = b

/-- The elements that a record brings to a list: one that stands alone, or numbers that are
packed. -/
inductive Brings (t : ScalarType) : Field → List t.Carrier → Prop
  | alone {f : Field} {x : t.Carrier} : t.Spells 1 f x → Brings t f [x]
  | packed {content : Bytes} {xs : List t.Carrier} :
      t.kind ≠ .bytes → InTurn t.Packs content xs → Brings t (.bytes 1 content) xs

/-- Whether a record inside a list is one of its elements' records. -/
def OwnsElement (t : ScalarType) (f : Field) : Prop :=
  f.number = 1 ∧ (f.kind = t.kind ∨ f.kind = .bytes)

instance (t : ScalarType) (f : Field) : Decidable (t.OwnsElement f) :=
  inferInstanceAs (Decidable (_ ∧ _))

/-- The list that records make: the elements of its own records in order, the other records as they
came. -/
def MadeOf (t : ScalarType) (rs : List Record) (l : ListMessage t.Carrier) : Prop :=
  (∃ xss, List.Forall₂ (fun r xs => t.Brings r.field xs) (rs.filter (t.OwnsElement ·.field)) xss ∧
    l.items = xss.flatten) ∧
  l.unknown = rs.filter (¬ t.OwnsElement ·.field)

end ScalarType

/-! ## Numbers in turn -/

theorem InTurn.map_iff {α β : Type} {spells : Bytes → α → Prop} {f : α → β} {bs : Bytes}
    {xs : List β} :
    InTurn (fun bs b => ∃ a, spells bs a ∧ f a = b) bs xs ↔
      ∃ as, InTurn spells bs as ∧ as.map f = xs := by
  constructor
  · intro h
    induction h with
    | nil => exact ⟨[], .nil, rfl⟩
    | cons ha _ ih =>
      obtain ⟨a, ha, rfl⟩ := ha
      obtain ⟨as, has, rfl⟩ := ih
      exact ⟨a :: as, .cons ha has, rfl⟩
  · rintro ⟨as, has, rfl⟩
    induction has with
    | nil => exact .nil
    | cons ha _ ih => exact .cons ⟨_, ha, rfl⟩ ih

/-- A reader of whole inputs goes through them element by element. -/
theorem SelfDelimiting.readAll_eq_some_iff {α : Type} {read : Bytes → Option (α × Bytes)}
    (hread : SelfDelimiting read) (hempty : read [] = none)
    {readAll : Nat → Bytes → Option (List α)} (hnil : ∀ fuel, readAll fuel [] = some [])
    (hzero : ∀ b bs, readAll 0 (b :: bs) = none)
    (hsucc : ∀ fuel b bs, readAll (fuel + 1) (b :: bs) =
      (read (b :: bs)).bind fun (a, rest) => (readAll fuel rest).map (a :: ·))
    {bs : Bytes} {as : List α} :
    readAll bs.length bs = some as ↔ InTurn (fun bs a => read bs = some (a, [])) bs as := by
  constructor
  · suffices h : ∀ fuel, readAll fuel bs = some as →
        InTurn (fun bs a => read bs = some (a, [])) bs as from
      h bs.length
    intro fuel
    induction fuel generalizing bs as with
    | zero =>
      intro h
      cases bs with
      | nil =>
        obtain rfl := Option.some.inj ((hnil 0).symm.trans h)
        exact .nil
      | cons b bs => simp [hzero] at h
    | succ fuel ih =>
      intro h
      cases bs with
      | nil =>
        obtain rfl := Option.some.inj ((hnil _).symm.trans h)
        exact .nil
      | cons b bs =>
        rw [hsucc] at h
        obtain ⟨⟨a, rest⟩, ha, hrest⟩ := Option.bind_eq_some_iff.1 h
        obtain ⟨as, has, rfl⟩ := Option.map_eq_some_iff.1 hrest
        obtain ⟨used, hused, hmore⟩ := hread _ _ _ ha
        have hone := hmore []
        rw [List.append_nil] at hone
        exact hused ▸ .cons hone (ih has)
  · intro h
    -- there is fuel enough, since every item takes a byte at least
    suffices hfuel : ∀ fuel, as.length ≤ fuel → readAll fuel bs = some as by
      refine hfuel _ ?_
      clear hfuel
      induction h with
      | nil => simp
      | @cons bs rest a as ha _ ih =>
        have hne : bs ≠ [] := by
          rintro rfl
          simp [hempty] at ha
        have := List.length_pos_iff.2 hne
        simp only [List.length_append, List.length_cons]
        omega
    intro fuel hfuel
    induction h generalizing fuel with
    | nil => exact hnil fuel
    | @cons bs rest a as ha _ ih =>
      rw [List.length_cons] at hfuel
      obtain ⟨fuel, rfl⟩ : ∃ n, fuel = n + 1 := ⟨fuel - 1, by omega⟩
      obtain ⟨used, hused, hmore⟩ := hread _ _ _ ha
      rw [List.append_nil] at hused
      have hone := hmore rest
      rw [← hused] at hone
      obtain ⟨b, bs', hcons⟩ := List.exists_cons_of_ne_nil (l := bs ++ rest) fun hnil => by
        rw [hnil, hempty] at hone
        cases hone
      rw [hcons, hsucc, ← hcons, hone, Option.bind_some]
      simp only [ih fuel (by omega), Option.map_some]

theorem Varint.readAll?_eq_some_iff {bs : Bytes} {vs : List UInt64} :
    Varint.readAll? bs.length bs = some vs ↔
      InTurn (fun bs v => Varint.readValue? bs = some (v, [])) bs vs := by
  refine Varint.selfDelimiting_readValue?.readAll_eq_some_iff rfl (fun fuel => ?_) (fun _ _ => rfl)
    fun fuel b bs => ?_
  · cases fuel <;> rfl
  · simp only [Varint.readAll?]
    cases Varint.readValue? (b :: bs) <;> rfl

theorem FixedWidth.readAll?_eq_some_iff {width : Nat} (hwidth : 0 < width) {bs : Bytes}
    {ns : List Nat} :
    FixedWidth.readAll? width bs.length bs = some ns ↔
      InTurn (fun bs n => FixedWidth.read? width bs = some (n, [])) bs ns := by
  have hempty : FixedWidth.read? width [] = none := by
    obtain ⟨n, rfl⟩ : ∃ n, width = n + 1 := ⟨width - 1, by omega⟩
    rfl
  refine (FixedWidth.selfDelimiting_read? width).readAll_eq_some_iff hempty (fun fuel => ?_)
    (fun _ _ => rfl) fun fuel b bs => ?_
  · cases fuel <;> rfl
  · simp only [FixedWidth.readAll?]
    cases FixedWidth.read? width (b :: bs) <;> rfl

theorem Reading.ofPacked_eq_taken {α : Type} {o : Option (List α)} {xs : List α} :
    Reading.ofPacked o = .taken xs ↔ o = some xs := by
  cases o <;> simp [Reading.ofPacked]

theorem Reading.ofPacked_ne_foreign {α : Type} (o : Option (List α)) :
    Reading.ofPacked o ≠ .foreign := by
  cases o <;> simp [Reading.ofPacked]

/-! ## A single record -/

namespace ScalarType

theorem taken_singleton {α : Type} {spells : α → Prop} {x₀ : α} (h : ∀ x, spells x ↔ x₀ = x)
    {xs : List α} : Reading.taken [x₀] = .taken xs ↔ ∃ x, spells x ∧ [x] = xs := by
  simp [h]

/-- A packed record brings the numbers that it spells in turn. -/
theorem read_packed {t : ScalarType} (ht : t.kind ≠ .bytes) {content : Bytes}
    {xs : List t.Carrier} :
    Element.read (.bytes 1 content) = .taken xs ↔ InTurn t.Packs content xs := by
  cases t with
  | bytes | text => exact absurd rfl ht
  | int32 | int64 | bool =>
    refine Reading.ofPacked_eq_taken.trans (Iff.trans ?_ InTurn.map_iff.symm)
    simp only [← Varint.readAll?_eq_some_iff]
    exact Option.map_eq_some_iff
  | double =>
    refine Reading.ofPacked_eq_taken.trans (Iff.trans ?_ InTurn.map_iff.symm)
    simp only [← FixedWidth.readAll?_eq_some_iff (show 0 < 8 by decide)]
    exact Option.map_eq_some_iff
  | float =>
    refine Reading.ofPacked_eq_taken.trans (Iff.trans ?_ InTurn.map_iff.symm)
    simp only [← FixedWidth.readAll?_eq_some_iff (show 0 < 4 by decide)]
    exact Option.map_eq_some_iff

/-- A record of a single element brings it. -/
theorem read_alone {t : ScalarType} {f : Field} (hnumber : f.number = 1) (hkind : f.kind = t.kind)
    {xs : List t.Carrier} : Element.read f = .taken xs ↔ ∃ x, t.Spells 1 f x ∧ [x] = xs := by
  cases t <;> cases f <;> cases hkind <;> obtain rfl := hnumber
  case bytes.bytes c =>
    exact taken_singleton fun x => ⟨fun h => (Field.bytes.inj h).2, fun h => h ▸ rfl⟩
  case text.bytes c =>
    refine Reading.ofPacked_eq_taken.trans (Option.map_eq_some_iff.trans (exists_congr fun s => ?_))
    exact and_congr_left' (Utf8.decode?_eq_some_iff.trans
      ⟨fun h => congrArg (Field.bytes 1) h, fun h => (Field.bytes.inj h).2⟩)
  case int32.varint w | int64.varint w | bool.varint w =>
    exact taken_singleton fun x =>
      ⟨fun ⟨v, hv, hx⟩ => by cases hv; exact hx, fun h => ⟨w, rfl, h⟩⟩
  case double.fixed64 w | float.fixed32 w =>
    exact taken_singleton fun x =>
      ⟨fun ⟨v, hv, hx⟩ => by cases hv; exact hx, fun h => ⟨w, rfl, h⟩⟩

theorem read_of_number_ne {t : ScalarType} {f : Field} (h : f.number ≠ 1) :
    Element.read (α := t.Carrier) f = .foreign := by
  cases f <;> rename_i n _ <;> rcases n with _ | _ | n
  all_goals first
    | exact absurd rfl h
    | cases t <;> rfl

/-- A list keeps the records that are not its elements'. -/
theorem read_eq_foreign_iff (t : ScalarType) {f : Field} :
    Element.read (α := t.Carrier) f = .foreign ↔ ¬ t.OwnsElement f := by
  by_cases hnumber : f.number = 1
  · cases f <;> obtain rfl := hnumber <;> cases t
    all_goals first
      | exact iff_of_true rfl (by rintro ⟨-, h | h⟩ <;> cases h)
      | exact iff_of_false (fun h => by cases h) (not_not_intro ⟨rfl, .inl rfl⟩)
      | exact iff_of_false (Reading.ofPacked_ne_foreign _) (not_not_intro ⟨rfl, .inr rfl⟩)
  · exact iff_of_true (read_of_number_ne hnumber) fun h => hnumber h.1

theorem Spells.owns {t : ScalarType} {n : Nat} {f : Field} {x : t.Carrier} (h : t.Spells n f x) :
    f.number = n ∧ f.kind = t.kind := by
  cases t
  case bytes | text =>
    cases h
    exact ⟨rfl, rfl⟩
  all_goals
    obtain ⟨v, rfl, -⟩ := h
    exact ⟨rfl, rfl⟩

/-- A record is read as the elements that it brings. -/
theorem read_eq_taken_iff (t : ScalarType) {f : Field} {xs : List t.Carrier} :
    Element.read f = .taken xs ↔ t.Brings f xs := by
  constructor
  · intro h
    have howns : t.OwnsElement f := by
      by_contra hnot
      rw [t.read_eq_foreign_iff.2 hnot] at h
      cases h
    obtain ⟨hnumber, hkind⟩ := howns
    by_cases halone : f.kind = t.kind
    · obtain ⟨x, hx, rfl⟩ := (read_alone hnumber halone).1 h
      exact .alone hx
    · have hbytes := hkind.resolve_left halone
      cases f <;> cases hbytes
      obtain rfl := hnumber
      exact .packed (Ne.symm halone) ((read_packed (Ne.symm halone)).1 h)
  · rintro (⟨hx⟩ | ⟨ht, hxs⟩)
    · exact (read_alone hx.owns.1 hx.owns.2).2 ⟨_, hx, rfl⟩
    · exact (read_packed ht).2 hxs

/-! ## A sequence of records -/

theorem madeOf_nil (t : ScalarType) {l : ListMessage t.Carrier} : t.MadeOf [] l ↔ l = ⟨[], []⟩ := by
  obtain ⟨items, unknown⟩ := l
  simp [MadeOf]

theorem madeOf_cons_of_owns {t : ScalarType} {r : Record} {rs : List Record}
    (h : t.OwnsElement r.field) {l : ListMessage t.Carrier} :
    t.MadeOf (r :: rs) l ↔
      ∃ xs l', t.Brings r.field xs ∧ t.MadeOf rs l' ∧ l = ⟨xs ++ l'.items, l'.unknown⟩ := by
  simp only [MadeOf, List.filter_cons, h, decide_true, if_true, not_true_eq_false, decide_false,
    Bool.false_eq_true, if_false, List.forall₂_cons_left_iff]
  constructor
  · rintro ⟨⟨_, ⟨xs, xss, hxs, hxss, rfl⟩, hitems⟩, hunknown⟩
    refine ⟨xs, ⟨xss.flatten, l.unknown⟩, hxs, ⟨⟨xss, hxss, rfl⟩, hunknown⟩, ?_⟩
    rw [List.flatten_cons] at hitems
    rw [← hitems]
  · rintro ⟨xs, l', hxs, ⟨⟨xss, hxss, hitems⟩, hunknown⟩, rfl⟩
    exact ⟨⟨xs :: xss, ⟨xs, xss, hxs, hxss, rfl⟩, by rw [hitems, List.flatten_cons]⟩, hunknown⟩

theorem madeOf_cons_of_not_owns {t : ScalarType} {r : Record} {rs : List Record}
    (h : ¬ t.OwnsElement r.field) {l : ListMessage t.Carrier} :
    t.MadeOf (r :: rs) l ↔ ∃ l', t.MadeOf rs l' ∧ l = ⟨l'.items, r :: l'.unknown⟩ := by
  simp only [MadeOf, List.filter_cons, h, decide_false, not_false_eq_true, decide_true, if_true,
    Bool.false_eq_true, if_false]
  constructor
  · rintro ⟨hitems, hunknown⟩
    exact ⟨⟨l.items, rs.filter (¬ t.OwnsElement ·.field)⟩, ⟨hitems, rfl⟩, by rw [← hunknown]⟩
  · rintro ⟨l', ⟨hitems, hunknown⟩, rfl⟩
    exact ⟨hitems, by rw [hunknown]⟩

end ScalarType

namespace ListMessage

/-- A list continued by another. -/
def append {α : Type} (l m : ListMessage α) : ListMessage α :=
  ⟨l.items ++ m.items, l.unknown ++ m.unknown⟩

variable {t : ScalarType}

/-- Records taken up on top of a list continue it by the list that they make. -/
theorem foldlM_absorb_eq_some_iff {rs : List Record} {m l : ListMessage t.Carrier} :
    rs.foldlM Message.absorb m = some l ↔
      ∃ l', t.MadeOf rs l' ∧ l = m.append l' := by
  induction rs generalizing m with
  | nil =>
    simp only [List.foldlM_nil, t.madeOf_nil, exists_eq_left, append, List.append_nil]
    exact Option.some_inj.trans eq_comm
  | cons r rs ih =>
    rw [List.foldlM_cons]
    -- a record either adds its elements to the front of what the others make, or is kept apart
    by_cases howns : t.OwnsElement r.field
    · simp only [ScalarType.madeOf_cons_of_owns howns]
      cases hread : Element.read (α := t.Carrier) r.field with
      | foreign => exact absurd howns (t.read_eq_foreign_iff.1 hread)
      | malformed =>
        rw [absorb_malformed hread]
        constructor
        · rintro ⟨⟩
        · rintro ⟨_, ⟨xs, l', hxs, -⟩, -⟩
          cases hread.symm.trans (t.read_eq_taken_iff.2 hxs)
      | taken xs =>
        rw [absorb_taken hread, Option.bind_eq_bind, Option.bind_some, ih]
        constructor
        · rintro ⟨l', hl', rfl⟩
          exact ⟨_, ⟨xs, l', t.read_eq_taken_iff.1 hread, hl', rfl⟩, by simp [append]⟩
        · rintro ⟨_, ⟨xs', l', hxs', hl', rfl⟩, rfl⟩
          obtain rfl : xs = xs' := Reading.taken.inj (hread.symm.trans (t.read_eq_taken_iff.2 hxs'))
          exact ⟨l', hl', by simp [append]⟩
    · simp only [ScalarType.madeOf_cons_of_not_owns howns]
      rw [absorb_foreign (t.read_eq_foreign_iff.2 howns), Option.bind_eq_bind, Option.bind_some, ih]
      constructor
      · rintro ⟨l', hl', rfl⟩
        exact ⟨_, ⟨l', hl', rfl⟩, by simp [append]⟩
      · rintro ⟨_, ⟨l', hl', rfl⟩, rfl⟩
        exact ⟨l', hl', by simp [append]⟩

/-- A payload is read as the list that its records make. -/
theorem decode?_eq_some_iff {bs : Bytes} {l : ListMessage t.Carrier} :
    Message.decode? bs = some l ↔ ∃ rs, Record.readAll? bs = some rs ∧ t.MadeOf rs l := by
  refine Option.bind_eq_some_iff.trans (exists_congr fun rs => and_congr_right' ?_)
  rw [foldlM_absorb_eq_some_iff]
  simp [Message.empty, append]

/-- A list that is read on top of another continues it. -/
theorem mergeFrom_eq (m : ListMessage t.Carrier) (bs : Bytes) :
    Message.mergeFrom m bs = (Message.decode? bs).map m.append := by
  ext l
  rw [Option.map_eq_some_iff]
  refine Option.bind_eq_some_iff.trans ?_
  simp only [foldlM_absorb_eq_some_iff, decode?_eq_some_iff]
  constructor
  · rintro ⟨rs, hrs, l', hl', rfl⟩
    exact ⟨l', ⟨rs, hrs, hl'⟩, rfl⟩
  · rintro ⟨l', ⟨rs, hrs, hl'⟩, rfl⟩
    exact ⟨rs, hrs, l', hl', rfl⟩

end ListMessage

end OnlineFeatures
