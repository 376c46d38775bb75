import OnlineFeatures.Proofs.Conversion.NormalForm

/-!
# Converting what was unwrapped

What a value is unwrapped to is made of scalars that are their own normal forms (`Native.Settled`,
`Content.unwrap_cases`), and so conversion only chooses a member for it: what it is converted to
unwraps to the same again (`Value.infer_unwrap`). The member may be another one, a double for a
float or a narrow integer for a wide one, but after one round it stays. Lists without items are the
exception, since no kind can be told from them (`Value.infer_unwrap_of_emptyList`).
-/

namespace OnlineFeatures

/-! ## Settled scalars -/

namespace Native

/-- Whether a value is a scalar of a kind that has a place in the union and is its own normal
form. -/
structure Settled (k : ScalarKind) (v : Native) : Prop where
  kind : v.kind? = some k
  fits : v.Fits
  normal : v.NormalScalar v

theorem settled_bool (b : Bool) : (bool b).Settled .bool := ⟨rfl, nofun, .bool b⟩

theorem settled_float (x : Double) : (float x).Settled .real := ⟨rfl, nofun, .float x⟩

theorem settled_single (x : Single) : (float x.toDouble).Settled .real := settled_float x.toDouble

theorem settled_text (s : String) : (text s).Settled .text := ⟨rfl, nofun, .text s⟩

theorem settled_bytes (content : Bytes) : (bytes content).Settled .bytes :=
  ⟨rfl, nofun, .bytes content⟩

theorem settled_int64 (i : Int64) : (int i.toInt).Settled .integer := by
  refine ⟨rfl, fun j hj => ?_, .integer rfl⟩
  obtain rfl := Option.some.inj hj
  have hlow := i.le_toInt
  have hhigh := i.toInt_lt
  omega

theorem settled_int32 (i : Int32) : (int i.toInt).Settled .integer := by
  refine ⟨rfl, fun j hj => ?_, .integer rfl⟩
  obtain rfl := Option.some.inj hj
  have hlow := i.le_toInt
  have hhigh := i.toInt_lt
  omega

theorem Settled.not_fraction {k : ScalarKind} {v : Native} (h : v.Settled k)
    (num : Int) (den : Nat) :
    v ≠ .fraction num den := by
  rintro rfl
  cases h.normal

theorem Settled.not_isHuge {k : ScalarKind} {v : Native} (h : v.Settled k) : ¬ v.IsHuge := by
  rintro ⟨num, den, heq, -⟩
  exact h.not_fraction num den heq

/-- A settled scalar is converted to a value that unwraps to it. -/
theorem Settled.infer_eq {k : ScalarKind} {v : Native} (h : v.Settled k) :
    ∃ w, v.infer = .ok w ∧ w.unwrap = v := by
  have hproper : v.Proper := by
    cases v with
    | fraction num den => exact absurd rfl (h.not_fraction num den)
    | collection => cases h.kind
    | _ => exact trivial
  have hvalue : ∀ u, v ≠ .value u := by
    rintro u rfl
    cases h.kind
  have hsupported := (supported_iff_of_kind h.kind).2 h.fits
  have hfinite := mt (overflows_iff_of_kind h.kind).1 h.not_isHuge
  obtain ⟨w, hw⟩ := (infer_ends hproper).ok_iff.2 ⟨hsupported, hfinite⟩
  exact ⟨w, hw, (infer_normal_of_ok hproper hvalue hw).1.unique (.scalar h.normal)⟩

/-- A list of settled scalars of one kind is converted to a value that unwraps to it, if it has
any. -/
theorem infer_list_of_settled {k : ScalarKind} {items : List Native} (hne : items ≠ [])
    (h : ∀ v ∈ items, v.Settled k) : ∃ w, (list items).infer = .ok w ∧ w.unwrap = .list items := by
  have hproper : (list items).Proper :=
    fun num den hmem => absurd rfl ((h _ hmem).not_fraction num den)
  have hsupported : (list items).Supported :=
    .sequence (.inl rfl) ⟨hne, fun v hv => (h v hv).kind⟩ fun v hv => (h v hv).fits
  have hfinite : ¬ (list items).Overflows := by
    intro hoverflows
    obtain ⟨-, -, v, hv, hhuge⟩ := overflows_collection_iff.1 hoverflows
    exact (h v hv).not_isHuge hhuge
  obtain ⟨w, hw⟩ := (infer_ends hproper).ok_iff.2 ⟨hsupported, hfinite⟩
  have hnormal : (list items).NormalForm (.list items) :=
    .sequence (.inl rfl) (List.forall₂_same.2 fun v hv => (h v hv).normal)
  exact ⟨w, hw, (infer_normal_of_ok hproper nofun hw).1.unique hnormal⟩

end Native

/-! ## Values -/

/-- Whether a member is a list without items. -/
def Content.IsEmptyList : Content → Prop
  | bytesList l => l.items = []
  | textList l => l.items = []
  | int32List l => l.items = []
  | int64List l => l.items = []
  | doubleList l => l.items = []
  | floatList l => l.items = []
  | boolList l => l.items = []
  | _ => False

/-- Whether a value holds a list without items. -/
def Value.HoldsEmptyList (v : Value) : Prop := ∃ c, v.content = some c ∧ c.IsEmptyList

open Native

/-- The items of a list are settled if all that are put into it are. -/
theorem ListMessage.unwrap_settled {α : Type} {f : α → Native} {k : ScalarKind}
    (hf : ∀ a, (f a).Settled k) (l : ListMessage α) :
    ∃ items, l.unwrap f = .list items ∧ (items = [] ↔ l.items = []) ∧ ∀ v ∈ items, v.Settled k := by
  refine ⟨l.items.map f, rfl, List.map_eq_nil_iff, fun v hv => ?_⟩
  obtain ⟨a, -, rfl⟩ := List.mem_map.1 hv
  exact hf a

/-- A member is unwrapped to nothing, to a settled scalar, or to a list of settled scalars of one
kind. -/
theorem Content.unwrap_cases (c : Content) :
    c.unwrap = .none ∧ ¬ c.IsEmptyList ∨
      (∃ k, c.unwrap.Settled k) ∧ ¬ c.IsEmptyList ∨
      ∃ k items, c.unwrap = .list items ∧ (items = [] ↔ c.IsEmptyList) ∧
        ∀ v ∈ items, v.Settled k := by
  cases c with
  | null n => exact .inl ⟨rfl, id⟩
  | bytes b => exact .inr (.inl ⟨⟨_, settled_bytes b⟩, id⟩)
  | text s => exact .inr (.inl ⟨⟨_, settled_text s⟩, id⟩)
  | int32 i => exact .inr (.inl ⟨⟨_, settled_int32 i⟩, id⟩)
  | int64 i => exact .inr (.inl ⟨⟨_, settled_int64 i⟩, id⟩)
  | double x => exact .inr (.inl ⟨⟨_, settled_float x⟩, id⟩)
  | float x => exact .inr (.inl ⟨⟨_, settled_single x⟩, id⟩)
  | bool b => exact .inr (.inl ⟨⟨_, settled_bool b⟩, id⟩)
  | bytesList l => exact .inr (.inr ⟨_, l.unwrap_settled settled_bytes⟩)
  | textList l => exact .inr (.inr ⟨_, l.unwrap_settled settled_text⟩)
  | int32List l => exact .inr (.inr ⟨_, l.unwrap_settled settled_int32⟩)
  | int64List l => exact .inr (.inr ⟨_, l.unwrap_settled settled_int64⟩)
  | doubleList l => exact .inr (.inr ⟨_, l.unwrap_settled settled_float⟩)
  | floatList l => exact .inr (.inr ⟨_, l.unwrap_settled settled_single⟩)
  | boolList l => exact .inr (.inr ⟨_, l.unwrap_settled settled_bool⟩)

namespace Value

/-- What a value was unwrapped to is converted, and what it is converted to unwraps to the same. -/
theorem infer_unwrap {v : Value} (h : ¬ v.HoldsEmptyList) :
    ∃ w, v.unwrap.infer = .ok w ∧ w.unwrap = v.unwrap := by
  obtain ⟨content, unknown⟩ := v
  cases content with
  | none => exact ⟨_, rfl, rfl⟩
  | some c =>
    show ∃ w, c.unwrap.infer = .ok w ∧ w.unwrap = c.unwrap
    rcases c.unwrap_cases with ⟨hnone, -⟩ | ⟨⟨k, hk⟩, -⟩ | ⟨k, items, hitems, hempty, hk⟩
    · rw [hnone]
      exact ⟨_, rfl, rfl⟩
    · exact hk.infer_eq
    · rw [hitems]
      exact infer_list_of_settled (fun hnil => h ⟨c, rfl, hempty.1 hnil⟩) hk

/-- A list without items is not converted again. -/
theorem infer_unwrap_of_emptyList {v : Value} (h : v.HoldsEmptyList) :
    v.unwrap.infer = .error (.unsupported .emptyList) := by
  obtain ⟨content, unknown⟩ := v
  obtain ⟨c, hc, hempty⟩ := h
  obtain rfl : content = some c := hc
  show c.unwrap.infer = _
  rcases c.unwrap_cases with ⟨-, hlist⟩ | ⟨-, hlist⟩ | ⟨k, items, hitems, hnil, -⟩
  · exact absurd hempty hlist
  · exact absurd hempty hlist
  · rw [hitems, hnil.2 hempty]
    rfl

end Value

end OnlineFeatures
