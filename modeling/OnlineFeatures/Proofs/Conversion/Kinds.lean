import Mathlib.Data.List.Forall2
import OnlineFeatures.Proofs.Conversion.Valid

/-!
# Kinds of scalars

Inference asks a value for one kind of scalar after another and takes the first answer. No value has
two kinds (`Native.kind?`), so the order of the questions does not matter: a scalar is converted by
the reader of its kind, and a list by the reader of the kind that its items share
(`Native.inferItems?_bool` and its like).
-/

namespace OnlineFeatures

/-! ## Traversals -/

section Traversals

variable {α β ε : Type}

theorem mapM_eq_some_iff {f : α → Option β} {l : List α} {bs : List β} :
    l.mapM f = some bs ↔ List.Forall₂ (fun a b => f a = some b) l bs := by
  induction l generalizing bs with
  | nil => cases bs <;> simp
  | cons a l ih =>
    rw [List.mapM_cons]
    cases h : f a with
    | none => cases bs <;> simp [h]
    | some b =>
      cases hl : l.mapM f with
      | none => cases bs <;> simp [← ih, hl]
      | some bs => rename_i cs; cases cs <;> simp [← ih, h, hl]

theorem mapM_eq_none_iff {f : α → Option β} {l : List α} :
    l.mapM f = none ↔ ∃ a ∈ l, f a = none := by
  induction l with
  | nil => simp
  | cons a l ih =>
    rw [List.mapM_cons]
    cases h : f a with
    | none => simp [h]
    | some b =>
      rw [List.exists_mem_cons_iff, ← ih, h]
      cases l.mapM f <;> simp

theorem mapM_eq_ok_iff {f : α → Except ε β} {l : List α} {bs : List β} :
    l.mapM f = .ok bs ↔ List.Forall₂ (fun a b => f a = .ok b) l bs := by
  induction l generalizing bs with
  | nil => cases bs <;> simp [pure, Except.pure]
  | cons a l ih =>
    rw [List.mapM_cons]
    cases h : f a with
    | error e => cases bs <;> simp [bind, Except.bind, h]
    | ok b =>
      cases hl : l.mapM f with
      | error e => cases bs <;> simp [bind, Except.bind, ← ih, hl]
      | ok bs => rename_i cs; cases cs <;> simp [bind, Except.bind, pure, Except.pure, ← ih, h, hl]

theorem exists_mapM_eq_ok_iff {f : α → Except ε β} {l : List α} :
    (∃ bs, l.mapM f = .ok bs) ↔ ∀ a ∈ l, ∃ b, f a = .ok b := by
  induction l with
  | nil => simp [pure, Except.pure]
  | cons a l ih =>
    rw [List.forall_mem_cons, ← ih, List.mapM_cons]
    cases f a with
    | error e => simp [bind, Except.bind]
    | ok b => cases l.mapM f <;> simp [bind, Except.bind, pure, Except.pure]

/-- A traversal ends with the first fault. -/
theorem mapM_eq_error_iff {f : α → Except ε β} {l : List α} {e : ε} :
    l.mapM f = .error e ↔
      ∃ before a after, l = before ++ a :: after ∧ (∀ b ∈ before, ∃ c, f b = .ok c) ∧
        f a = .error e := by
  induction l with
  | nil => simp [pure, Except.pure]
  | cons a l ih =>
    rw [List.mapM_cons]
    cases h : f a with
    | error e' =>
      change Except.error e' = Except.error e ↔ _
      constructor
      · intro heq
        exact ⟨[], a, l, rfl, by simp, h.trans (congrArg _ (Except.error.inj heq))⟩
      · rintro ⟨before, a', after, heq, hbefore, ha'⟩
        cases before with
        | nil =>
          obtain ⟨rfl, -⟩ := List.cons.inj heq
          exact congrArg _ (Except.error.inj (h.symm.trans ha'))
        | cons b before =>
          obtain ⟨rfl, -⟩ := List.cons.inj heq
          obtain ⟨c, hc⟩ := hbefore a List.mem_cons_self
          cases h.symm.trans hc
    | ok b =>
      have hrest : (do let bs ← l.mapM f; pure (b :: bs) : Except ε (List β)) = .error e ↔
          l.mapM f = .error e := by
        cases l.mapM f <;> simp [bind, Except.bind, pure, Except.pure]
      -- the first item succeeds, so it stands before the one that fails
      refine hrest.trans (ih.trans ⟨?_, ?_⟩)
      · rintro ⟨before, a', after, rfl, hbefore, ha'⟩
        exact ⟨a :: before, a', after, rfl, List.forall_mem_cons.2 ⟨⟨b, h⟩, hbefore⟩, ha'⟩
      · rintro ⟨before, a', after, heq, hbefore, ha'⟩
        cases before with
        | nil =>
          obtain ⟨rfl, -⟩ := List.cons.inj heq
          cases h.symm.trans ha'
        | cons b' before =>
          obtain ⟨-, rfl⟩ := List.cons.inj heq
          exact ⟨before, a', after, rfl, (List.forall_mem_cons.1 hbefore).2, ha'⟩

/-- Reading first and going on from what was read is one traversal. -/
theorem mapM_of_mapM_eq_some {γ : Type} {f : α → Option β} {l : List α} {bs : List β}
    (h : l.mapM f = some bs) (g : β → Except ε γ) (e : ε) :
    bs.mapM g = l.mapM fun a => (f a).elim (.error e) g := by
  have hread := mapM_eq_some_iff.1 h
  clear h
  induction hread with
  | nil => rfl
  | cons hab _ ih => rw [List.mapM_cons, List.mapM_cons, ih, hab, Option.elim_some]

theorem Except.map_eq_error_iff {f : α → β} {o : Except ε α} {e : ε} :
    o.map f = .error e ↔ o = .error e := by
  cases o <;> simp [Except.map]

end Traversals

/-! ## Kinds -/

/-- The kinds of scalars that are told apart. -/
inductive ScalarKind where
  | bool
  | integer
  | real
  | text
  | bytes
  deriving DecidableEq, Repr

/-- The collections that have an order. -/
def CollectionType.IsSequence (type : CollectionType) : Prop := type = list ∨ type = tuple

namespace Native

/-- The kind of a scalar. A truth value is no integer, and an integer is no real number. -/
def kind? : Native → Option ScalarKind
  | bool _ => some .bool
  | int _ | status _ => some .integer
  | float _ | fraction .. => some .real
  | text _ => some .text
  | octets .bytes _ | octets .byteArray _ => some .bytes
  | _ => Option.none

/-- Whether a list has items, all of them of one kind. -/
def ItemsOf (k : ScalarKind) (items : List Native) : Prop :=
  items ≠ [] ∧ ∀ v ∈ items, v.kind? = some k

/-! ## Readers and kinds -/

theorem bool?_eq_none_iff {v : Native} : v.bool? = Option.none ↔ v.kind? ≠ some .bool := by
  cases v with
  | octets type => cases type <;> simp [bool?, kind?]
  | _ => simp [bool?, kind?]

theorem integer?_eq_none_iff {v : Native} : v.integer? = Option.none ↔ v.kind? ≠ some .integer := by
  cases v with
  | octets type => cases type <;> simp [integer?, kind?]
  | _ => simp [integer?, kind?]

theorem real?_eq_none_iff {v : Native} : v.real? = Option.none ↔ v.kind? ≠ some .real := by
  cases v with
  | octets type => cases type <;> simp [real?, kind?]
  | _ => simp [real?, kind?]

theorem text?_eq_none_iff {v : Native} : v.text? = Option.none ↔ v.kind? ≠ some .text := by
  cases v with
  | octets type => cases type <;> simp [text?, kind?]
  | _ => simp [text?, kind?]

theorem bytes?_eq_none_iff {v : Native} : v.bytes? = Option.none ↔ v.kind? ≠ some .bytes := by
  cases v with
  | octets type => cases type <;> simp [bytes?, kind?]
  | _ => simp [bytes?, kind?]

section Readers

variable {α : Type} {read : Native → Option α} {j k : ScalarKind} {items : List Native}
  (hread : ∀ {v : Native}, read v = Option.none ↔ v.kind? ≠ some j)

include hread

/-- A reader reads every scalar of its kind. -/
theorem exists_read {v : Native} (h : v.kind? = some j) : ∃ a, read v = some a := by
  rw [← Option.ne_none_iff_exists', ne_eq, hread, not_not]
  exact h

/-- A reader of another kind reads no list of a kind. -/
theorem mapM_eq_none_of_kind (h : ItemsOf k items) (hne : k ≠ j) :
    items.mapM read = Option.none := by
  obtain ⟨v, items, rfl⟩ := List.exists_cons_of_ne_nil h.1
  refine mapM_eq_none_iff.2 ⟨v, List.mem_cons_self, hread.2 ?_⟩
  rw [h.2 v List.mem_cons_self]
  simpa using hne

/-- A reader reads every list of its kind, and no other list of items. -/
theorem exists_mapM_eq_some_iff :
    (∃ as, items.mapM read = some as) ↔ ∀ v ∈ items, v.kind? = some j := by
  rw [← Option.ne_none_iff_exists', ne_eq, mapM_eq_none_iff, not_exists]
  refine forall_congr' fun v => ?_
  rw [not_and, hread, not_not]

end Readers

theorem kind?_of_integer? {v : Native} {i : Int} (h : v.integer? = some i) :
    v.kind? = some .integer := by
  by_contra hkind
  rw [integer?_eq_none_iff.2 hkind] at h
  cases h

theorem ItemsOf.unique {items : List Native} {j k : ScalarKind} (hj : ItemsOf j items)
    (hk : ItemsOf k items) : j = k := by
  obtain ⟨v, items, rfl⟩ := List.exists_cons_of_ne_nil hj.1
  have h := hj.2 v List.mem_cons_self
  rw [hk.2 v List.mem_cons_self] at h
  exact (Option.some.inj h).symm

/-! ## Inference by kind -/

theorem inferScalar?_of_bool? {v : Native} {b : Bool} (h : v.bool? = some b) :
    v.inferScalar? = some (.ok (.bool b)) := by
  cases v <;> cases h
  rfl

theorem inferScalar?_of_integer? {v : Native} {i : Int} (h : v.integer? = some i) :
    v.inferScalar? = some ((checkInt64 i).map .ofInteger) := by
  cases v <;> cases h <;> rfl

theorem inferScalar?_of_real? {v : Native} {o : Except InferenceFault Double}
    (h : v.real? = some o) :
    v.inferScalar? = some (o.map .double) := by
  cases v <;> cases h <;> rfl

theorem inferScalar?_of_text? {v : Native} {s : String} (h : v.text? = some s) :
    v.inferScalar? = some (.ok (.text s)) := by
  cases v <;> cases h
  rfl

theorem inferScalar?_of_bytes? {v : Native} {content : Bytes} (h : v.bytes? = some content) :
    v.inferScalar? = some (.ok (.bytes content)) := by
  cases v with
  | octets type => cases type <;> cases h <;> rfl
  | _ => cases h

theorem infer_of_inferScalar? {v : Native} {o : Except InferenceFault Content}
    (h : v.inferScalar? = some o) : v.infer = o.map .ofContent := by
  unfold infer
  split
  · cases h
  · cases h
  · cases h
  · cases h
  · rw [h, Option.getD_some]

section Lists

variable {items : List Native}

theorem inferItems?_bool (h : ItemsOf .bool items) :
    ∃ bs, items.mapM bool? = some bs ∧
      inferItems? items = some (.ok (.boolList (.ofList bs))) := by
  obtain ⟨bs, hbs⟩ := (exists_mapM_eq_some_iff bool?_eq_none_iff).2 h.2
  exact ⟨bs, hbs, by simp [inferItems?, hbs]⟩

theorem inferItems?_integer (h : ItemsOf .integer items) :
    ∃ is, items.mapM integer? = some is ∧
      inferItems? items = some ((is.mapM checkInt64).map .ofIntegers) := by
  obtain ⟨is, his⟩ := (exists_mapM_eq_some_iff integer?_eq_none_iff).2 h.2
  exact ⟨is, his, by
    simp [inferItems?, his, mapM_eq_none_of_kind bool?_eq_none_iff h (by decide)]⟩

theorem inferItems?_real (h : ItemsOf .real items) :
    ∃ os, items.mapM real? = some os ∧
      inferItems? items = some ((os.mapM id).map (.doubleList <| .ofList ·)) := by
  obtain ⟨os, hos⟩ := (exists_mapM_eq_some_iff real?_eq_none_iff).2 h.2
  exact ⟨os, hos, by
    simp [inferItems?, hos, mapM_eq_none_of_kind bool?_eq_none_iff h (by decide),
      mapM_eq_none_of_kind integer?_eq_none_iff h (by decide)]⟩

theorem inferItems?_text (h : ItemsOf .text items) :
    ∃ ss, items.mapM text? = some ss ∧
      inferItems? items = some (.ok (.textList (.ofList ss))) := by
  obtain ⟨ss, hss⟩ := (exists_mapM_eq_some_iff text?_eq_none_iff).2 h.2
  exact ⟨ss, hss, by
    simp [inferItems?, hss, mapM_eq_none_of_kind bool?_eq_none_iff h (by decide),
      mapM_eq_none_of_kind integer?_eq_none_iff h (by decide),
      mapM_eq_none_of_kind real?_eq_none_iff h (by decide)]⟩

theorem inferItems?_bytes (h : ItemsOf .bytes items) :
    ∃ bs, items.mapM bytes? = some bs ∧
      inferItems? items = some (.ok (.bytesList (.ofList bs))) := by
  obtain ⟨bs, hbs⟩ := (exists_mapM_eq_some_iff bytes?_eq_none_iff).2 h.2
  exact ⟨bs, hbs, by
    simp [inferItems?, hbs, mapM_eq_none_of_kind bool?_eq_none_iff h (by decide),
      mapM_eq_none_of_kind integer?_eq_none_iff h (by decide),
      mapM_eq_none_of_kind real?_eq_none_iff h (by decide),
      mapM_eq_none_of_kind text?_eq_none_iff h (by decide)]⟩

/-- Items that share no kind make no list. -/
theorem inferItems?_eq_none (h : ∀ k, ¬ ∀ v ∈ items, v.kind? = some k) :
    inferItems? items = Option.none := by
  have hnone {α : Type} {read : Native → Option α} {j : ScalarKind}
      (hread : ∀ {v : Native}, read v = Option.none ↔ v.kind? ≠ some j) :
      items.mapM read = Option.none := by
    by_contra hsome
    exact h j ((exists_mapM_eq_some_iff hread).1 (Option.ne_none_iff_exists'.1 hsome))
  simp [inferItems?, hnone bool?_eq_none_iff, hnone integer?_eq_none_iff, hnone real?_eq_none_iff,
    hnone text?_eq_none_iff, hnone bytes?_eq_none_iff]

end Lists

theorem infer_sequence {type : CollectionType} {items : List Native} (h : type.IsSequence) :
    (collection type items).infer = (inferList items).map .ofContent := by
  rcases h with rfl | rfl <;> rfl

end Native

end OnlineFeatures
