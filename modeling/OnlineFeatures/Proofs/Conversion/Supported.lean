import OnlineFeatures.Failure
import OnlineFeatures.Proofs.Conversion.Kinds
import OnlineFeatures.Proofs.Number.Nearest

/-!
# Supported values

Which native values have a place in the union is said here by their kinds alone
(`Native.Supported`), and `Native.infer_outcome` compares inference with that, outcome by outcome.
Two kinds of numbers fall out of the rule: a quotient that is too large for a float is supported and
still fails (`Native.Overflows`), and an integer too long to be written fails while its refusal is
worded (`Native.Unwordable`). All other values are converted when they are supported, and refused as
unsupported when they are not.
-/

namespace OnlineFeatures

namespace Native

/-! ## Support -/

/-- Whether a value, if it is an integer, has at most 64 bits. -/
def Fits (v : Native) : Prop :=
  ∀ i, v.integer? = some i → -0x8000000000000000 ≤ i ∧ i ≤ 0x7fffffffffffffff

/-- The values that have a place in the union. -/
inductive Supported : Native → Prop
  | value (v : Value) : Supported (.value v)
  | none : Supported .none
  | scalar {v : Native} {k : ScalarKind} : v.kind? = some k → v.Fits → Supported v
  | sequence {type : CollectionType} {items : List Native} {k : ScalarKind} :
      type.IsSequence → ItemsOf k items → (∀ v ∈ items, v.Fits) → Supported (.collection type items)

/-- Whether a value is a quotient that is too large for a float. -/
def IsHuge (v : Native) : Prop :=
  ∃ num den, v = .fraction num den ∧ Double.overflowBound * den ≤ num.natAbs

/-- The values in which a real number is too large for a float. -/
inductive Overflows : Native → Prop
  | scalar {v : Native} : v.IsHuge → Overflows v
  | sequence {type : CollectionType} {items : List Native} {v : Native} :
      type.IsSequence → ItemsOf .real items → v ∈ items → v.IsHuge →
        Overflows (.collection type items)

/-- Whether a value is an integer with more digits than are ever written. -/
def IsLong (v : Native) : Prop := ∃ i, v.integer? = some i ∧ Nat.pow 10 numeralLimit ≤ i.natAbs

/-- The values whose refusal would have to name an integer that is too long: the first of their
integers beyond 64 bits. -/
inductive Unwordable : Native → Prop
  | scalar {v : Native} : v.IsLong → Unwordable v
  | sequence {type : CollectionType} {before : List Native} {v : Native} {after : List Native} :
      type.IsSequence → ItemsOf .integer (before ++ v :: after) →
        (∀ u ∈ before, u.Fits) → v.IsLong →
      Unwordable (.collection type (before ++ v :: after))

/-- Whether the quotients that a value consists of have denominators. -/
def Proper : Native → Prop
  | fraction _ den => 0 < den
  | collection _ items => ∀ num den, fraction num den ∈ items → 0 < den
  | _ => True

theorem fits_of_kind {v : Native} (h : v.kind? ≠ some .integer) : v.Fits :=
  fun _ hi => absurd (kind?_of_integer? hi) h

theorem kind?_of_isHuge {v : Native} (h : v.IsHuge) : v.kind? = some .real := by
  obtain ⟨num, den, rfl, -⟩ := h
  rfl

theorem kind?_of_isLong {v : Native} (h : v.IsLong) : v.kind? = some .integer := by
  obtain ⟨i, hi, -⟩ := h
  exact kind?_of_integer? hi

/-! ## Numbers -/

theorem checkInt64_eq_ok_iff {i j : Int} :
    checkInt64 i = .ok j ↔ j = i ∧ -0x8000000000000000 ≤ i ∧ i ≤ 0x7fffffffffffffff := by
  have hfits : fitsInt64 i = true ↔ -0x8000000000000000 ≤ i ∧ i ≤ 0x7fffffffffffffff := by
    simp [fitsInt64]
  rw [checkInt64, ← hfits]
  split
  · rename_i h
    simp [h, eq_comm]
  · rename_i h
    split <;> simp [h]

theorem checkInt64_eq_longNumeral_iff {i : Int} :
    checkInt64 i = .error .longNumeral ↔ Nat.pow 10 numeralLimit ≤ i.natAbs := by
  have hlong : 2 ^ 64 ≤ Nat.pow 10 numeralLimit := by
    have hlimit : 20 ≤ numeralLimit := by decide
    rw [Nat.pow_eq]
    exact le_trans (by norm_num) (Nat.pow_le_pow_right (by decide) hlimit)
  rw [checkInt64]
  split
  · rename_i h
    simp only [fitsInt64, Bool.and_eq_true, decide_eq_true_eq] at h
    constructor
    · nofun
    · intro hi
      omega
  · split
    · rename_i h
      simpa [numeralTooLong] using h
    · rename_i h
      simpa [numeralTooLong] using h

theorem checkInt64_ne_tooLarge (i : Int) : checkInt64 i ≠ .error .tooLarge := by
  rw [checkInt64]
  split
  · nofun
  · split <;> nofun

/-- The only fault of a real number is that it is too large. -/
theorem real?_eq_error_iff {v : Native} {e : InferenceFault}
    (hv : ∀ num den, v = .fraction num den → 0 < den) :
    v.real? = some (.error e) ↔ e = .tooLarge ∧ v.IsHuge := by
  cases v with
  | fraction num den =>
    have hnone : Double.ofFraction? (decide (num < 0)) num.natAbs den = Option.none ↔ _ :=
      Double.ofFraction?_eq_none_iff (hv num den rfl)
    have hhuge : (fraction num den).IsHuge ↔ Double.overflowBound * den ≤ num.natAbs := by
      constructor
      · rintro ⟨_, _, heq, h⟩
        cases heq
        exact h
      · exact fun h => ⟨num, den, rfl, h⟩
    rw [hhuge, ← hnone]
    simp only [real?, Option.some.injEq]
    cases Double.ofFraction? (decide (num < 0)) num.natAbs den <;> simp [eq_comm]
  | _ => simp [real?, IsHuge]

/-! ## Outcomes -/

/-- An inference succeeds, finds a number too large, or cannot word its refusal, exactly under three
conditions. -/
structure Ends {α : Type} (o : Except InferenceFault α) (converted tooLarge unwordable : Prop) :
    Prop where
  ok_iff : (∃ a, o = .ok a) ↔ converted
  tooLarge_iff : o = .error .tooLarge ↔ tooLarge
  longNumeral_iff : o = .error .longNumeral ↔ unwordable

namespace Ends

variable {α β : Type} {o : Except InferenceFault α} {p q r p' q' r' : Prop}

theorem of_ok {a : α} (hp : p) (hq : ¬ q) (hr : ¬ r) :
    Ends (.ok a : Except InferenceFault α) p q r :=
  ⟨⟨fun _ => hp, fun _ => ⟨a, rfl⟩⟩, ⟨nofun, fun h => absurd h hq⟩, ⟨nofun, fun h => absurd h hr⟩⟩

theorem of_unsupported {why : UnsupportedValue} (hp : ¬ p) (hq : ¬ q) (hr : ¬ r) :
    Ends (.error (.unsupported why) : Except InferenceFault α) p q r :=
  ⟨⟨nofun, fun h => absurd h hp⟩, ⟨nofun, fun h => absurd h hq⟩, ⟨nofun, fun h => absurd h hr⟩⟩

theorem map (h : Ends o p q r) (f : α → β) : Ends (o.map f) p q r where
  ok_iff := by
    rw [← h.ok_iff]
    cases o <;> simp [Except.map]
  tooLarge_iff := Except.map_eq_error_iff.trans h.tooLarge_iff
  longNumeral_iff := Except.map_eq_error_iff.trans h.longNumeral_iff

theorem congr (h : Ends o p q r) (hp : p ↔ p') (hq : q ↔ q') (hr : r ↔ r') : Ends o p' q' r' :=
  ⟨h.ok_iff.trans hp, h.tooLarge_iff.trans hq, h.longNumeral_iff.trans hr⟩

/-- All other values are refused as unsupported. -/
theorem unsupported_iff (h : Ends o p q r) :
    (∃ why, o = .error (.unsupported why)) ↔ ¬ p ∧ ¬ q ∧ ¬ r := by
  rw [← h.ok_iff, ← h.tooLarge_iff, ← h.longNumeral_iff]
  cases o with
  | ok a => simp
  | error e => cases e <;> simp

end Ends

/-! ## How inference ends -/

/-- How the inference of a scalar ends. -/
theorem inferScalar?_ends {v : Native} {k : ScalarKind} (hk : v.kind? = some k)
    (hv : ∀ num den, v = .fraction num den → 0 < den) :
    ∃ o, v.inferScalar? = some o ∧ Ends o (v.Fits ∧ ¬ v.IsHuge) v.IsHuge v.IsLong := by
  have hhuge (hne : k ≠ .real) : ¬ v.IsHuge := fun h =>
    hne (Option.some.inj (hk.symm.trans (kind?_of_isHuge h)))
  have hlong (hne : k ≠ .integer) : ¬ v.IsLong := fun h =>
    hne (Option.some.inj (hk.symm.trans (kind?_of_isLong h)))
  have hfits (hne : k ≠ .integer) : v.Fits := fits_of_kind (by simpa [hk] using hne)
  -- only integers can be long and only reals huge, so the other kinds always succeed
  cases k with
  | bool =>
    obtain ⟨b, hb⟩ := exists_read bool?_eq_none_iff hk
    exact ⟨_, inferScalar?_of_bool? hb,
      .of_ok ⟨hfits (by decide), hhuge (by decide)⟩ (hhuge (by decide)) (hlong (by decide))⟩
  | integer =>
    obtain ⟨i, hi⟩ := exists_read integer?_eq_none_iff hk
    refine ⟨_, inferScalar?_of_integer? hi, Ends.map ⟨?_, ?_, ?_⟩ _⟩
    · simp only [checkInt64_eq_ok_iff, Fits, hi, Option.some.injEq]
      exact ⟨fun ⟨_, _, h⟩ => ⟨fun _ heq => heq ▸ h, hhuge (by decide)⟩,
        fun h => ⟨i, rfl, h.1 i rfl⟩⟩
    · exact ⟨fun h => absurd h (checkInt64_ne_tooLarge i), fun h => absurd h (hhuge (by decide))⟩
    · simp [checkInt64_eq_longNumeral_iff, IsLong, hi]
  | real =>
    obtain ⟨o, ho⟩ := exists_read real?_eq_none_iff hk
    have herror {e : InferenceFault} : o = .error e ↔ e = .tooLarge ∧ v.IsHuge := by
      rw [← real?_eq_error_iff hv, ho, Option.some.injEq]
    refine ⟨_, inferScalar?_of_real? ho, Ends.map ⟨?_, ?_, ?_⟩ _⟩
    · rw [and_iff_right (hfits (by decide))]
      cases o with
      | ok x => simpa using fun h => (herror (e := .tooLarge)).2 ⟨rfl, h⟩
      | error e => simpa using (herror.1 rfl).2
    · simp [herror]
    · simp [herror, hlong]
  | text =>
    obtain ⟨s, hs⟩ := exists_read text?_eq_none_iff hk
    exact ⟨_, inferScalar?_of_text? hs,
      .of_ok ⟨hfits (by decide), hhuge (by decide)⟩ (hhuge (by decide)) (hlong (by decide))⟩
  | bytes =>
    obtain ⟨content, hcontent⟩ := exists_read bytes?_eq_none_iff hk
    exact ⟨_, inferScalar?_of_bytes? hcontent,
      .of_ok ⟨hfits (by decide), hhuge (by decide)⟩ (hhuge (by decide)) (hlong (by decide))⟩

section Lists

variable {items : List Native}

/-- How the inference of a list of integers ends. -/
theorem inferIntegers_ends {is : List Int} (h : items.mapM integer? = some is) :
    Ends (is.mapM checkInt64) (∀ v ∈ items, v.Fits) False
      (∃ before v after, items = before ++ v :: after ∧ (∀ u ∈ before, u.Fits) ∧ v.IsLong) := by
  have hread : ∀ v ∈ items, ∃ i, v.integer? = some i := fun v hv =>
    exists_read integer?_eq_none_iff ((exists_mapM_eq_some_iff integer?_eq_none_iff).1 ⟨is, h⟩ v hv)
  have hfits : ∀ v ∈ items, (∃ j, v.integer?.elim (.error .tooLarge) checkInt64 = .ok j) ↔
      v.Fits := by
    intro v hv
    obtain ⟨i, hi⟩ := hread v hv
    simp only [hi, Option.elim_some, checkInt64_eq_ok_iff, Fits, Option.some.injEq]
    exact ⟨fun ⟨_, _, h⟩ _ heq => heq ▸ h, fun h => ⟨i, rfl, h i rfl⟩⟩
  have herror : ∀ v ∈ items, ∀ e, v.integer?.elim (.error .tooLarge) checkInt64 = .error e ↔
      ∃ i, v.integer? = some i ∧ checkInt64 i = .error e := by
    intro v hv e
    obtain ⟨i, hi⟩ := hread v hv
    simp [hi]
  -- one pass over the items, so that the first that fails is the first of them that is refused
  rw [mapM_of_mapM_eq_some h checkInt64 .tooLarge]
  refine ⟨?_, ?_, ?_⟩
  · rw [exists_mapM_eq_ok_iff]
    exact forall₂_congr hfits
  · refine iff_false_intro fun htooLarge => ?_
    obtain ⟨before, v, after, rfl, -, hv⟩ := mapM_eq_error_iff.1 htooLarge
    obtain ⟨i, -, hi⟩ := (herror v (by simp) _).1 hv
    exact checkInt64_ne_tooLarge i hi
  · rw [mapM_eq_error_iff]
    refine exists_congr fun before => exists_congr fun v => exists_congr fun after =>
      and_congr_right fun heq => and_congr ?_ ?_
    · exact forall₂_congr fun u hu => hfits u (by simp [heq, hu])
    · rw [herror v (by simp [heq])]
      simp only [checkInt64_eq_longNumeral_iff, IsLong]

/-- How the inference of a list of real numbers ends. -/
theorem inferReals_ends {os : List (Except InferenceFault Double)}
    (hproper : ∀ num den, fraction num den ∈ items → 0 < den) (h : items.mapM real? = some os) :
    Ends (os.mapM id) (∀ v ∈ items, ¬ v.IsHuge) (∃ v ∈ items, v.IsHuge) False := by
  have herror : ∀ v ∈ items, ∀ e, v.real?.elim (.error .tooLarge) id = .error e ↔
      e = .tooLarge ∧ v.IsHuge := by
    intro v hv e
    obtain ⟨o, ho⟩ := exists_read real?_eq_none_iff
      ((exists_mapM_eq_some_iff real?_eq_none_iff).1 ⟨os, h⟩ v hv)
    rw [← real?_eq_error_iff fun num den heq => hproper num den (heq ▸ hv), ho]
    simp
  have hok : ∀ v ∈ items, (∃ x, v.real?.elim (.error .tooLarge) id = .ok x) ↔ ¬ v.IsHuge := by
    intro v hv
    cases ho : v.real?.elim (.error .tooLarge) id with
    | ok x => simpa using fun hhuge => by simpa [ho] using (herror v hv .tooLarge).2 ⟨rfl, hhuge⟩
    | error e => simpa using ((herror v hv e).1 ho).2
  -- all failures are the same one, so it does not matter which item comes first
  rw [mapM_of_mapM_eq_some h id .tooLarge]
  have hall : (∃ xs, (items.mapM fun v => v.real?.elim (.error .tooLarge) id) = .ok xs) ↔
      ∀ v ∈ items, ¬ v.IsHuge := by
    rw [exists_mapM_eq_ok_iff]
    exact forall₂_congr hok
  refine ⟨hall, ?_, ?_⟩
  · constructor
    · intro htooLarge
      obtain ⟨before, v, after, rfl, -, hv⟩ := mapM_eq_error_iff.1 htooLarge
      exact ⟨v, by simp, ((herror v (by simp) _).1 hv).2⟩
    · rintro ⟨v, hv, hhuge⟩
      cases hm : items.mapM fun v => v.real?.elim (.error .tooLarge) id with
      | ok xs => exact absurd hhuge (hall.1 ⟨xs, hm⟩ v hv)
      | error e =>
        obtain ⟨before, v', after, rfl, -, hv'⟩ := mapM_eq_error_iff.1 hm
        rw [((herror v' (by simp) e).1 hv').1]
  · refine iff_false_intro fun hlong => ?_
    obtain ⟨before, v, after, rfl, -, hv⟩ := mapM_eq_error_iff.1 hlong
    cases ((herror v (by simp) _).1 hv).1

/-- How the inference of a list ends. -/
theorem inferList_ends (hproper : ∀ num den, fraction num den ∈ items → 0 < den) :
    Ends (inferList items)
      (((∃ k, ItemsOf k items) ∧ ∀ v ∈ items, v.Fits) ∧
        ¬ (ItemsOf .real items ∧ ∃ v ∈ items, v.IsHuge))
      (ItemsOf .real items ∧ ∃ v ∈ items, v.IsHuge)
      (ItemsOf .integer items ∧
        ∃ before v after, items = before ++ v :: after ∧ (∀ u ∈ before, u.Fits) ∧ v.IsLong) := by
  by_cases hempty : items = []
  · subst hempty
    exact .of_unsupported (fun h => h.1.1.elim fun _ hk => hk.1 rfl) (fun h => h.1.1 rfl) fun h =>
      h.1.1 rfl
  have hinfer {o : Except InferenceFault Content} (ho : inferItems? items = some o) :
      inferList items = o := by
    simp [inferList, hempty, ho]
  -- without a common kind there is no list message; with one, that kind alone decides
  by_cases hkind : ∃ k, ItemsOf k items
  case neg =>
    have hnone : inferItems? items = Option.none :=
      inferItems?_eq_none fun k h => hkind ⟨k, hempty, h⟩
    have hmixed : inferList items = .error (.unsupported (.mixedList (typeNames items))) := by
      simp [inferList, hempty, hnone]
    rw [hmixed]
    exact .of_unsupported (fun h => hkind h.1.1) (fun h => hkind ⟨_, h.1⟩) fun h => hkind ⟨_, h.1⟩
  obtain ⟨k, hk⟩ := hkind
  have hfits (hne : k ≠ .integer) : ∀ v ∈ items, v.Fits := fun v hv =>
    fits_of_kind (by simpa [hk.2 v hv] using hne)
  have hnot {j : ScalarKind} (hne : k ≠ j) {p : Prop} : ¬ (ItemsOf j items ∧ p) :=
    fun h => hne (hk.unique h.1)
  cases k with
  | bool =>
    obtain ⟨bs, -, hbs⟩ := inferItems?_bool hk
    rw [hinfer hbs]
    exact .of_ok ⟨⟨⟨_, hk⟩, hfits (by decide)⟩, hnot (by decide)⟩ (hnot (by decide))
      (hnot (by decide))
  | integer =>
    obtain ⟨is, hread, his⟩ := inferItems?_integer hk
    rw [hinfer his]
    refine ((inferIntegers_ends hread).map _).congr ?_ ?_ ?_
    · exact ⟨fun h => ⟨⟨⟨_, hk⟩, h⟩, hnot (by decide)⟩, fun h => h.1.2⟩
    · exact ⟨False.elim, hnot (by decide)⟩
    · exact (and_iff_right hk).symm
  | real =>
    obtain ⟨os, hread, hos⟩ := inferItems?_real hk
    rw [hinfer hos]
    refine ((inferReals_ends hproper hread).map _).congr ?_ ?_ ?_
    · rw [and_iff_right ⟨⟨_, hk⟩, hfits (by decide)⟩, and_iff_right hk]
      simp
    · exact (and_iff_right hk).symm
    · exact ⟨False.elim, hnot (by decide)⟩
  | text =>
    obtain ⟨ss, -, hss⟩ := inferItems?_text hk
    rw [hinfer hss]
    exact .of_ok ⟨⟨⟨_, hk⟩, hfits (by decide)⟩, hnot (by decide)⟩ (hnot (by decide))
      (hnot (by decide))
  | bytes =>
    obtain ⟨bs, -, hbs⟩ := inferItems?_bytes hk
    rw [hinfer hbs]
    exact .of_ok ⟨⟨⟨_, hk⟩, hfits (by decide)⟩, hnot (by decide)⟩ (hnot (by decide))
      (hnot (by decide))

end Lists

section Shapes

variable {v : Native} {k : ScalarKind} {type : CollectionType} {items : List Native}

theorem supported_iff_of_kind (h : v.kind? = some k) : v.Supported ↔ v.Fits := by
  constructor
  · intro hv
    cases hv with
    | scalar _ hfits => exact hfits
    | _ => cases h
  · exact .scalar h

theorem overflows_iff_of_kind (h : v.kind? = some k) : v.Overflows ↔ v.IsHuge := by
  constructor
  · intro hv
    cases hv with
    | scalar hhuge => exact hhuge
    | sequence => cases h
  · exact .scalar

theorem unwordable_iff_of_kind (h : v.kind? = some k) : v.Unwordable ↔ v.IsLong := by
  constructor
  · intro hv
    cases hv with
    | scalar hlong => exact hlong
    | sequence => cases h
  · exact .scalar

theorem supported_collection_iff : (collection type items).Supported ↔
    type.IsSequence ∧ (∃ k, ItemsOf k items) ∧ ∀ v ∈ items, v.Fits := by
  constructor
  · intro h
    cases h with
    | scalar hk => cases hk
    | sequence htype hitems hfits => exact ⟨htype, ⟨_, hitems⟩, hfits⟩
  · rintro ⟨htype, ⟨k, hitems⟩, hfits⟩
    exact .sequence htype hitems hfits

theorem overflows_collection_iff : (collection type items).Overflows ↔
    type.IsSequence ∧ ItemsOf .real items ∧ ∃ v ∈ items, v.IsHuge := by
  constructor
  · intro h
    cases h with
    | scalar hhuge => cases kind?_of_isHuge hhuge
    | sequence htype hitems hv hhuge => exact ⟨htype, hitems, _, hv, hhuge⟩
  · rintro ⟨htype, hitems, v, hv, hhuge⟩
    exact .sequence htype hitems hv hhuge

theorem unwordable_collection_iff : (collection type items).Unwordable ↔
    type.IsSequence ∧ ItemsOf .integer items ∧
      ∃ before v after, items = before ++ v :: after ∧ (∀ u ∈ before, u.Fits) ∧ v.IsLong := by
  constructor
  · intro h
    cases h with
    | scalar hlong => cases kind?_of_isLong hlong
    | sequence htype hitems hbefore hlong => exact ⟨htype, hitems, _, _, _, rfl, hbefore, hlong⟩
  · rintro ⟨htype, hitems, before, v, after, rfl, hbefore, hlong⟩
    exact .sequence htype hitems hbefore hlong

end Shapes

/-- What is neither a value of its own, nor a scalar, nor a sequence has no place. -/
theorem infer_other {v : Native} (hnone : v ≠ .none) (hvalue : ∀ u, v ≠ .value u)
    (hkind : v.kind? = Option.none)
    (hsequence : ∀ type items, type.IsSequence → v ≠ .collection type items) :
    v.infer = .error (.unsupported (.noMapping v.typeName)) := by
  cases v with
  | value u => exact absurd rfl (hvalue u)
  | none => exact absurd rfl hnone
  | collection type items =>
    cases type with
    | list => exact absurd rfl (hsequence _ _ (.inl rfl))
    | tuple => exact absurd rfl (hsequence _ _ (.inr rfl))
    | _ => rfl
  | octets type =>
    cases type with
    | memoryView => rfl
    | _ => cases hkind
  | bool | int | status | float | fraction | text => cases hkind
  | _ => rfl

/-- How the inference of a value ends. -/
theorem infer_ends {v : Native} (hv : v.Proper) :
    Ends v.infer (v.Supported ∧ ¬ v.Overflows) v.Overflows v.Unwordable := by
  by_cases hsequence : ∃ type items, type.IsSequence ∧ v = .collection type items
  · obtain ⟨type, items, htype, rfl⟩ := hsequence
    rw [infer_sequence htype]
    refine ((inferList_ends hv).map _).congr ?_ ?_ ?_
    · rw [supported_collection_iff, overflows_collection_iff, and_iff_right htype,
        and_iff_right htype]
    · rw [overflows_collection_iff, and_iff_right htype]
    · rw [unwordable_collection_iff, and_iff_right htype]
  cases hkind : v.kind? with
  | some k =>
    have hproper : ∀ num den, v = .fraction num den → 0 < den := by
      rintro num den rfl
      exact hv
    obtain ⟨o, ho, hends⟩ := inferScalar?_ends hkind hproper
    rw [infer_of_inferScalar? ho, supported_iff_of_kind hkind, overflows_iff_of_kind hkind,
      unwordable_iff_of_kind hkind]
    exact hends.map _
  | none =>
    -- what is neither a list nor a scalar can neither overflow nor be long
    have hhuge : ¬ v.IsHuge := fun h => by simp [kind?_of_isHuge h] at hkind
    have hlong : ¬ v.IsLong := fun h => by simp [kind?_of_isLong h] at hkind
    have hoverflows : ¬ v.Overflows := by
      rintro (h | ⟨htype, -⟩)
      · exact hhuge h
      · exact hsequence ⟨_, _, htype, rfl⟩
    have hunwordable : ¬ v.Unwordable := by
      rintro (h | ⟨htype, -⟩)
      · exact hlong h
      · exact hsequence ⟨_, _, htype, rfl⟩
    by_cases hnone : v = .none
    · subst hnone
      exact .of_ok ⟨.none, hoverflows⟩ hoverflows hunwordable
    by_cases hvalue : ∃ u, v = .value u
    · obtain ⟨u, rfl⟩ := hvalue
      exact .of_ok ⟨.value u, hoverflows⟩ hoverflows hunwordable
    have hsupported : ¬ v.Supported := by
      intro h
      cases h with
      | value u => exact hvalue ⟨u, rfl⟩
      | none => exact hnone rfl
      | scalar hk => simp [hkind] at hk
      | sequence htype => exact hsequence ⟨_, _, htype, rfl⟩
    rw [infer_other hnone (fun u hu => hvalue ⟨u, hu⟩) hkind
      fun type items htype heq => hsequence ⟨type, items, htype, heq⟩]
    exact .of_unsupported (fun h => hsupported h.1) hoverflows hunwordable

theorem Overflows.supported {v : Native} (h : v.Overflows) : v.Supported := by
  have hfits {u : Native} (hu : u.kind? = some .real) : u.Fits := fits_of_kind (by simp [hu])
  cases h with
  | scalar hhuge => exact .scalar (kind?_of_isHuge hhuge) (hfits (kind?_of_isHuge hhuge))
  | sequence htype hitems => exact .sequence htype hitems fun u hu => hfits (hitems.2 u hu)

/-- Which native values are converted, and how the others fail.

Every supported value is converted, unless a real number in it is too large for a float. Every other
value is refused as unsupported, unless the refusal would name an integer that is too long. These
two failures have causes of their own. -/
theorem infer_outcome {v : Native} (hv : v.Proper) :
    ((∃ w, v.infer = .ok w) ↔ v.Supported ∧ ¬ v.Overflows) ∧
    ((∃ why, v.infer = .error why ∧ (Failure.inference why).kind = .unsupportedType) ↔
      ¬ v.Supported ∧ ¬ v.Unwordable) ∧
    (v.infer = .error .tooLarge ↔ v.Overflows) ∧
    (v.infer = .error .longNumeral ↔ v.Unwordable) := by
  have hends := infer_ends hv
  have hkind {why : InferenceFault} :
      (Failure.inference why).kind = .unsupportedType ↔ ∃ u, why = .unsupported u := by
    cases why <;> simp [Failure.kind]
  refine ⟨hends.ok_iff, ?_, hends.tooLarge_iff, hends.longNumeral_iff⟩
  calc (∃ why, v.infer = .error why ∧ (Failure.inference why).kind = .unsupportedType)
      ↔ ∃ u, v.infer = .error (.unsupported u) := by
        simp only [hkind]
        exact ⟨fun ⟨_, h, u, hu⟩ => ⟨u, hu ▸ h⟩, fun ⟨u, h⟩ => ⟨_, h, u, rfl⟩⟩
    _ ↔ ¬ (v.Supported ∧ ¬ v.Overflows) ∧ ¬ v.Overflows ∧ ¬ v.Unwordable := hends.unsupported_iff
    _ ↔ ¬ v.Supported ∧ ¬ v.Unwordable := by
        have := Overflows.supported (v := v)
        tauto

/-- A tuple of a status and a wide integer, which has a place, and one of a float and the least
number that is too large. -/
theorem infer_outcome_tuples :
    (∃ w, (collection .tuple [.status .present, .int 0x80000000]).infer = .ok w) ∧
      (collection .tuple [.float .zero, .fraction Double.overflowBound 1]).infer =
        .error .tooLarge := by
  constructor
  · have hproper : (collection .tuple [.status .present, .int 0x80000000]).Proper := by
      simp [Proper]
    refine (infer_outcome hproper).1.2 ⟨.sequence (k := .integer) (.inr rfl) ?_ ?_, ?_⟩
    · exact ⟨by simp, by simp [kind?]⟩
    · simp [Fits, integer?, FieldStatus.number]
    · rintro (h | ⟨-, h, -⟩)
      · cases kind?_of_isHuge h
      · simpa [kind?] using h.2 (.status .present) (by simp)
  · have hproper : (collection .tuple [.float .zero, .fraction Double.overflowBound 1]).Proper := by
      generalize Double.overflowBound = bound
      simp [Proper]
    refine (infer_outcome hproper).2.2.1.2 (.sequence (.inr rfl) ⟨List.cons_ne_nil _ _, ?_⟩
      (List.mem_cons_of_mem _ List.mem_cons_self) ⟨_, _, rfl, ?_⟩)
    · generalize Double.overflowBound = bound
      simp [kind?]
    · rw [Int.natAbs_natCast, Nat.mul_one]

/-- Not every value that is no supported one is refused as unsupported: an integer of more digits
than are ever written fails otherwise. -/
theorem infer_long_integer :
    ¬ ∀ v : Native, v.Proper → ((∃ w, v.infer = .ok w) ↔ v.Supported) ∧
      ∀ why, v.infer = .error why → (Failure.inference why).kind = .unsupportedType := by
  intro h
  have hlong : (int (Nat.pow 10 numeralLimit)).infer = .error .longNumeral := by
    have hcheck : checkInt64 (Nat.pow 10 numeralLimit) = .error .longNumeral :=
      checkInt64_eq_longNumeral_iff.2 (by rw [Int.natAbs_natCast])
    rw [infer_of_inferScalar? (inferScalar?_of_integer? rfl), hcheck]
    rfl
  obtain ⟨-, hkind⟩ := h (int (Nat.pow 10 numeralLimit)) trivial
  cases hkind _ hlong

end Native

end OnlineFeatures
