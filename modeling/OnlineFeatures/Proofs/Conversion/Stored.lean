import OnlineFeatures.Proofs.Conversion.Supported
import OnlineFeatures.Proofs.Message.Members
import OnlineFeatures.Proofs.Number.Rounding

/-!
# What explicit converters store

A converter should keep what its argument holds: the same integer, truth value, text or bytes, or
the nearest float (`ScalarType.Keeps`). What becomes of an argument is another relation
(`ScalarType.Becomes`), which is wider in three places. Bytes are also made of an integer, as so
many zeros, and of a collection of small integers; a text is also made of bytes that spell one; and
every integer but zero is true. A 32-bit float goes through the nearest 64-bit one. Both relations
are lifted to scalars and lists in one way (`Converter.Fills`), and `Converter.apply_stores` says of
every converter and argument which of them holds.
-/

namespace OnlineFeatures

/-! ## What arguments hold -/

/-- The quantity that a decimal number is; a signaling NaN is none. -/
def Decimal.quantity? : Decimal → Option Quantity
  | finite s d => some (.finite s d.value)
  | infinite s => some (.infinite s)
  | nan _ signaling _ => if signaling then none else some .nan

namespace Native

/-- The quantity that a value is, if it is a real number or a float. -/
def quantity? : Native → Option Quantity
  | float x => some x.quantity
  | fraction num den => some (.finite (num < 0) (num.natAbs / den))
  | decimal d => d.quantity?
  | v => v.count?.map fun i => .finite (i < 0) i.natAbs

/-- Whether a value is an integer or a quotient beyond the largest float. -/
def TooLarge (v : Native) : Prop :=
  (∃ i, v.count? = some i ∧ Double.overflowBound ≤ i.natAbs) ∨ v.IsHuge

/-- Whether a value, if it is a quotient, has a denominator. -/
def Divides : Native → Prop
  | fraction _ den => 0 < den
  | _ => True

/-- Whether the quotients that an argument consists of have denominators. -/
def DividesAll (v : Native) : Prop :=
  v.Divides ∧ ∀ items, v.items? = some items → ∀ item ∈ items, item.Divides

/-- The bytes that are made of a value: those it holds, as many zeros as it counts, or one of each
of its items. -/
inductive AsBytes (room : Nat) : Native → Bytes → Prop
  | octets (type : OctetType) (content : Bytes) : AsBytes room (.octets type content) content
  | zeros {v : Native} {n : Nat} : v.count? = some (n : Int) → n < room → n < addressLimit →
      AsBytes room v (List.replicate n 0)
  | items {v : Native} {items : List Native} {bs : Bytes} : (∀ s, v ≠ .text s) →
    v.items? = some items →
      List.Forall₂ (fun item b => item.count? = some (b.toNat : Int)) items bs → AsBytes room v bs

end Native

namespace ScalarType

/-- Whether a scalar is what an argument holds. -/
def Keeps : (t : ScalarType) → Native → t.Carrier → Prop
  | bytes, v, b => ∃ type, v = .octets type b
  | text, v, s => v = .text s
  | int32, v, i => v.integer? = some (Int32.toInt i)
  | int64, v, i => v.integer? = some (Int64.toInt i)
  | double, v, x => ∃ q, v.quantity? = some q ∧ FloatFormat.double.Rounds q (Double.bits x).toNat
  | float, v, x => ∃ q, v.quantity? = some q ∧ FloatFormat.single.Rounds q (Single.bits x).toNat
  | bool, v, b => v.count? = some (Bool.toInt b)

/-- What becomes of an argument, where there is room for byte strings shorter than the first one. -/
def Becomes (room : Nat) : (t : ScalarType) → Native → t.Carrier → Prop
  | bytes, v, b => v.AsBytes room b
  | text, v, s => v = .text s ∨ v = .bytes (Utf8.encode s)
  | int32, v, i => v.integer? = some (Int32.toInt i)
  | int64, v, i => v.integer? = some (Int64.toInt i)
  | double, v, x =>
    ¬ v.TooLarge ∧ ∃ q, v.quantity? = some q ∧ FloatFormat.double.Rounds q (Double.bits x).toNat
  | float, v, x => ¬ v.TooLarge ∧ ∃ q, ∃ y : Double, v.quantity? = some q ∧
    FloatFormat.double.Rounds q y.bits.toNat ∧
      FloatFormat.single.Rounds y.quantity (Single.bits x).toNat
  | bool, v, b => ∃ n : Int, v.count? = some n ∧ -2 ^ 63 ≤ n ∧ n < 2 ^ 63 ∧ (b = true ↔ n ≠ 0)

/-- Whether an argument is of the kind that a type is for: of integers the bits, and of numbers
those whose nearest 64-bit float is rounded as the number itself. -/
def Sound : ScalarType → Native → Prop
  | bytes, v => ∃ type content, v = .octets type content
  | text, v => ∃ s, v = .text s
  | int32, _ | int64, _ | double, _ => True
  | float, v => ∃ q, ∃ y : Double, ∃ x : Single, v.quantity? = some q ∧
    FloatFormat.double.Rounds q y.bits.toNat ∧ FloatFormat.single.Rounds y.quantity x.bits.toNat ∧
    FloatFormat.single.Rounds q x.bits.toNat
  | bool, v => v.count? = some 0 ∨ v.count? = some 1

end ScalarType

/-! ## Bytes -/

namespace Native

variable {room : Nat}

theorem toByte_eq_ok_iff {v : Native} {b : UInt8} :
    v.toByte = .ok b ↔ v.count? = some (b.toNat : Int) := by
  have hb := b.toNat_lt
  rw [toByte]
  cases v.count? with
  | none => simp
  | some i =>
    rw [Option.some_inj]
    dsimp only
    split
    · rename_i hi
      rw [Except.ok.injEq]
      constructor
      · rintro rfl
        simp
        omega
      · rintro rfl
        simp
    · rename_i hi
      simp only [reduceCtorEq, false_iff]
      omega

theorem zeroBytes_eq_ok_iff {i : Int} {b : Bytes} :
    zeroBytes room i = .ok b ↔
      ∃ n : Nat, i = n ∧ n < room ∧ n < addressLimit ∧ b = List.replicate n 0 := by
  rw [zeroBytes]
  split_ifs
  case neg =>
    constructor
    · rintro ⟨⟩
      exact ⟨i.toNat, by omega, by omega, by omega, rfl⟩
    · rintro ⟨n, rfl, -, -, rfl⟩
      rfl
  all_goals
    refine iff_of_false nofun ?_
    rintro ⟨n, rfl, hn, haddress, -⟩
    omega

theorem count?_of_items? {v : Native} {items : List Native} (h : v.items? = some items) :
    v.count? = Option.none := by
  cases v <;> first | rfl | cases h

/-- The bytes of a byte string are those of its items. -/
theorem mapM_toByte_octets (content : Bytes) :
    (content.map fun b => Native.int b.toNat).mapM toByte = .ok content := by
  rw [mapM_eq_ok_iff, List.forall₂_map_left_iff]
  exact List.forall₂_same.2 fun b _ => toByte_eq_ok_iff.2 rfl

theorem asBytes_iff_of_count {v : Native} {i : Int} (h : v.count? = some i) {b : Bytes} :
    v.AsBytes room b ↔ zeroBytes room i = .ok b := by
  rw [zeroBytes_eq_ok_iff]
  constructor
  · rintro (_ | ⟨hn, hroom, haddress⟩ | ⟨-, hitems, -⟩)
    · cases h
    · exact ⟨_, Option.some.inj (h.symm.trans hn), hroom, haddress, rfl⟩
    · cases (count?_of_items? hitems).symm.trans h
  · rintro ⟨n, rfl, hn, haddress, rfl⟩
    exact .zeros h hn haddress

theorem asBytes_iff_of_items {v : Native} {items : List Native} (htext : ∀ s, v ≠ .text s)
    (h : v.items? = some items) {b : Bytes} : v.AsBytes room b ↔ items.mapM toByte = .ok b := by
  constructor
  · rintro (_ | ⟨hn, -⟩ | ⟨-, hitems, hbytes⟩)
    · cases h
      exact mapM_toByte_octets b
    · cases (count?_of_items? h).symm.trans hn
    · obtain rfl := Option.some.inj (h.symm.trans hitems)
      exact mapM_eq_ok_iff.2 (hbytes.imp fun _ _ => toByte_eq_ok_iff.2)
  · intro hbytes
    exact .items htext h ((mapM_eq_ok_iff.1 hbytes).imp fun _ _ => toByte_eq_ok_iff.1)

/-- Of a long range no more has to be looked at than shows that it has an item that is no byte. -/
theorem mapM_toByte_range (stop : Int) {b : Bytes} :
    (rangeItems (min stop 257)).mapM toByte = .ok b ↔ (rangeItems stop).mapM toByte = .ok b := by
  rcases le_or_gt stop 257 with hshort | hlong
  · rw [min_eq_left hshort]
  · have hrefused (n : Int) (hn : 257 ≤ n) : (rangeItems n).mapM toByte ≠ .ok b := by
      intro h
      obtain ⟨byte, hbyte⟩ := exists_mapM_eq_ok_iff.1 ⟨b, h⟩ (.int 256)
        (List.mem_map.2 ⟨256, List.mem_range.2 (by omega), rfl⟩)
      cases hbyte
    exact iff_of_false (hrefused _ (by omega)) (hrefused _ hlong.le)

theorem toBytes_eq_ok_iff {v : Native} {b : Bytes} : v.toBytes room = .ok b ↔ v.AsBytes room b := by
  cases v
  case octets type content =>
    rw [asBytes_iff_of_items (fun _ h => by cases h) rfl, mapM_toByte_octets]
    rfl
  case text s =>
    refine iff_of_false nofun ?_
    rintro (_ | ⟨hn, -⟩ | ⟨htext, -, -⟩)
    · cases hn
    · exact htext s rfl
  case range stop =>
    rw [asBytes_iff_of_items (fun _ h => by cases h) rfl]
    exact mapM_toByte_range stop
  case bool | int | status => rw [asBytes_iff_of_count rfl]; rfl
  case collection | dict => rw [asBytes_iff_of_items (fun _ h => by cases h) rfl]; rfl
  all_goals
    refine iff_of_false nofun ?_
    rintro (_ | ⟨hn, -⟩ | ⟨-, hitems, -⟩)
    · cases hn
    · cases hitems

end Native

/-! ## Numbers -/

/-- A quotient below the bound has a nearest float, and no other one has. -/
theorem Double.ofFraction?_eq_ite (s : Bool) (num : Nat) {den : Nat} (hden : 0 < den) :
    ofFraction? s num den = if overflowBound * den ≤ num then none
      else some (ofFraction s num den) := by
  have hnone : ofFraction? s num den = none ↔ _ := ofFraction?_eq_none_iff hden
  split
  · rename_i hlarge
    exact hnone.2 hlarge
  · rename_i hsmall
    rw [← hnone, ofFraction?] at hsmall
    rw [ofFraction?]
    split <;> simp_all

namespace Native

theorem toDouble_of_count {v : Native} {i : Int} (h : v.count? = some i) :
    v.toDouble = (Double.ofInt? i).elim (.error .tooLarge) .ok ∧
      v.quantity? = some (.finite (i < 0) i.natAbs) ∧ ¬ v.IsHuge := by
  cases v
  case bool | int | status =>
    cases h
    refine ⟨rfl, rfl, ?_⟩
    rintro ⟨num, den, heq, -⟩
    cases heq
  all_goals cases h

theorem not_tooLarge_of_count {v : Native} (h : v.count? = Option.none)
    (hfraction : ∀ num den, v ≠ .fraction num den) :
    ¬ v.TooLarge := by
  rintro (⟨i, hi, -⟩ | ⟨num, den, heq, -⟩)
  · cases h.symm.trans hi
  · exact hfraction num den heq

theorem tooLarge_fraction_iff {num : Int} {den : Nat} :
    (fraction num den).TooLarge ↔ Double.overflowBound * den ≤ num.natAbs := by
  constructor
  · rintro (⟨i, hi, -⟩ | ⟨_, _, heq, h⟩)
    · cases hi
    · cases heq
      exact h
  · exact fun h => .inr ⟨num, den, rfl, h⟩

theorem tooLarge_iff_of_count {v : Native} {i : Int} (h : v.count? = some i) :
    v.TooLarge ↔ Double.overflowBound ≤ i.natAbs := by
  constructor
  · rintro (⟨j, hj, hlarge⟩ | hhuge)
    · cases h.symm.trans hj
      exact hlarge
    · exact absurd hhuge (toDouble_of_count h).2.2
  · exact fun hlarge => .inl ⟨i, h, hlarge⟩

/-- A number that is not too large is stored as the nearest float. -/
theorem toDouble_eq_ok {v : Native} (hv : v.Divides) {x : Double} (h : v.toDouble = .ok x) :
    ¬ v.TooLarge ∧ ∃ q, v.quantity? = some q ∧ FloatFormat.double.Rounds q x.bits.toNat := by
  -- all that counts as an integer is rounded by one rule; other numbers have one each
  cases hcount : v.count? with
  | some i =>
    obtain ⟨hdouble, hquantity, -⟩ := toDouble_of_count hcount
    rw [hdouble, Double.ofInt?, Double.ofFraction?_eq_ite _ _ Nat.one_pos, Nat.mul_one] at h
    rw [tooLarge_iff_of_count hcount]
    split at h
    · cases h
    · rename_i hsmall
      cases h
      have hrounds := Double.rounds_ofFraction (decide (i < 0)) i.natAbs Nat.one_pos
      rw [Nat.cast_one, div_one] at hrounds
      exact ⟨hsmall, _, hquantity, hrounds⟩
  | none =>
    cases v
    case float y =>
      cases h
      exact ⟨not_tooLarge_of_count rfl nofun, _, rfl, x.rounds_quantity⟩
    case fraction num den =>
      rw [toDouble, Double.ofFraction?_eq_ite _ _ hv] at h
      rw [tooLarge_fraction_iff]
      split at h
      · cases h
      · rename_i hsmall
        cases h
        exact ⟨hsmall, _, rfl, Double.rounds_ofFraction _ _ hv⟩
    case decimal d =>
      refine ⟨not_tooLarge_of_count rfl nofun, ?_⟩
      cases d with
      | finite s d =>
        cases h
        exact ⟨_, rfl, Double.rounds_toDouble ⟨s, d⟩⟩
      | infinite s =>
        cases h
        exact ⟨_, rfl, Double.rounds_infinity s⟩
      | nan s signaling payload =>
        cases signaling <;> cases h
        exact ⟨_, rfl, Double.rounds_quietNaN s⟩
    case bool | int | status => cases hcount
    all_goals cases h

theorem exists_toDouble {v : Native} (hv : v.Divides) (hlarge : ¬ v.TooLarge) {q : Quantity}
    (hq : v.quantity? = some q) : ∃ x, v.toDouble = .ok x := by
  cases hcount : v.count? with
  | some i =>
    rw [tooLarge_iff_of_count hcount] at hlarge
    rw [(toDouble_of_count hcount).1, Double.ofInt?,
      Double.ofFraction?_eq_ite _ _ Nat.one_pos, Nat.mul_one, if_neg hlarge]
    exact ⟨_, rfl⟩
  | none =>
    cases v
    case float y => exact ⟨y, rfl⟩
    case fraction num den =>
      rw [tooLarge_fraction_iff] at hlarge
      rw [toDouble, Double.ofFraction?_eq_ite _ _ hv, if_neg hlarge]
      exact ⟨_, rfl⟩
    case decimal d =>
      cases d with
      | finite | infinite => exact ⟨_, rfl⟩
      | nan s signaling payload =>
        cases signaling
        · exact ⟨_, rfl⟩
        · cases hq
    case bool | int | status => cases hcount
    all_goals cases hq

end Native

/-! ## Scalars -/

namespace Native

theorem integerIn_eq_ok_iff {low high i : Int} {v : Native} :
    v.integerIn low high = .ok i ↔ v.integer? = some i ∧ low ≤ i ∧ i ≤ high := by
  rw [integerIn]
  cases v.integer? with
  | none => simp
  | some j =>
    dsimp only
    split
    · rename_i hj
      simp only [Except.ok.injEq, Option.some.injEq]
      exact ⟨fun h => ⟨h, h ▸ hj⟩, fun h => h.1⟩
    · rename_i hj
      simp only [reduceCtorEq, Option.some.injEq, false_iff]
      rintro ⟨rfl, hi⟩
      exact hj hi

theorem toInt32_eq_ok_iff {v : Native} {i : Int32} :
    v.toInt32 = .ok i ↔ v.integer? = some i.toInt := by
  have hlow := i.le_toInt
  have hhigh := i.toInt_lt
  rw [toInt32, Except.map_eq_ok_iff]
  constructor
  · rintro ⟨n, hn, rfl⟩
    obtain ⟨hn, hrange⟩ := integerIn_eq_ok_iff.1 hn
    rwa [Int32.toInt_ofInt_of_le (by omega) (by omega)]
  · intro h
    exact ⟨i.toInt, integerIn_eq_ok_iff.2 ⟨h, by omega⟩, Int32.ofInt_toInt i⟩

theorem toInt64_eq_ok_iff {v : Native} {i : Int64} :
    v.toInt64 = .ok i ↔ v.integer? = some i.toInt := by
  have hlow := i.le_toInt
  have hhigh := i.toInt_lt
  rw [toInt64, Except.map_eq_ok_iff]
  constructor
  · rintro ⟨n, hn, rfl⟩
    obtain ⟨hn, hrange⟩ := integerIn_eq_ok_iff.1 hn
    rwa [Int64.toInt_ofInt_of_le (by omega) (by omega)]
  · intro h
    exact ⟨i.toInt, integerIn_eq_ok_iff.2 ⟨h, by omega⟩, Int64.ofInt_toInt i⟩

theorem toBool_eq_ok_iff {v : Native} {b : Bool} :
    v.toBool = .ok b ↔
      ∃ n : Int, v.count? = some n ∧ -2 ^ 63 ≤ n ∧ n < 2 ^ 63 ∧ (b = true ↔ n ≠ 0) := by
  rw [toBool]
  cases v.count? with
  | none => simp
  | some n =>
    simp only [Option.some.injEq, exists_eq_left']
    split
    · rename_i hn
      rw [Except.ok.injEq]
      constructor
      · rintro rfl
        exact ⟨by omega, by omega, by simp⟩
      · rintro ⟨-, -, hb⟩
        cases b <;> simp_all
    · rename_i hn
      simp only [reduceCtorEq, false_iff]
      omega

theorem toText_eq_ok_iff {v : Native} {s : String} :
    v.toText = .ok s ↔ v = .text s ∨ v = .bytes (Utf8.encode s) := by
  cases v
  case text s' => simp [toText, bytes]
  case octets type content =>
    cases type
    case bytes =>
      have hdecode : Utf8.decode? content = some s ↔ content = Utf8.encode s :=
        Utf8.decode?_eq_some_iff
      simp only [toText, bytes, reduceCtorEq, false_or, octets.injEq, true_and, ← hdecode]
      cases Utf8.decode? content <;> simp
    all_goals simp [toText, bytes]
  all_goals simp [toText, bytes]

end Native

namespace ScalarType

variable {room : Nat}

/-- Reads an argument as a scalar of a type. -/
def read (room : Nat) : (t : ScalarType) → Native → Except ConversionFault t.Carrier
  | bytes => Native.toBytes room
  | text => Native.toText
  | int32 => Native.toInt32
  | int64 => Native.toInt64
  | double => Native.toDouble
  | float => Native.toSingle
  | bool => Native.toBool

/-- What is read of an argument is what becomes of it, and an argument is refused only if nothing
can. -/
theorem becomes_of_read {t : ScalarType} {v : Native} (hv : v.Divides) {x : t.Carrier}
    (h : t.read room v = .ok x) :
    t.Becomes room v x := by
  cases t with
  | bytes => exact Native.toBytes_eq_ok_iff.1 h
  | text => exact Native.toText_eq_ok_iff.1 h
  | int32 => exact Native.toInt32_eq_ok_iff.1 h
  | int64 => exact Native.toInt64_eq_ok_iff.1 h
  | double => exact Native.toDouble_eq_ok hv h
  | float =>
    obtain ⟨y, hy, rfl⟩ := Except.map_eq_ok_iff.1 h
    obtain ⟨hlarge, q, hq, hrounds⟩ := Native.toDouble_eq_ok hv hy
    exact ⟨hlarge, q, y, hq, hrounds, y.rounds_toSingle⟩
  | bool => exact Native.toBool_eq_ok_iff.1 h

theorem exists_read_iff {t : ScalarType} {v : Native} (hv : v.Divides) :
    (∃ x, t.read room v = .ok x) ↔ ∃ x, t.Becomes room v x := by
  refine ⟨fun ⟨x, hx⟩ => ⟨x, becomes_of_read hv hx⟩, ?_⟩
  rintro ⟨x, hx⟩
  cases t with
  | bytes => exact ⟨x, Native.toBytes_eq_ok_iff.2 hx⟩
  | text => exact ⟨x, Native.toText_eq_ok_iff.2 hx⟩
  | int32 => exact ⟨x, Native.toInt32_eq_ok_iff.2 hx⟩
  | int64 => exact ⟨x, Native.toInt64_eq_ok_iff.2 hx⟩
  | double =>
    obtain ⟨hlarge, q, hq, -⟩ := hx
    exact Native.exists_toDouble hv hlarge hq
  | float =>
    obtain ⟨hlarge, q, -, hq, -⟩ := hx
    obtain ⟨y, hy⟩ := Native.exists_toDouble hv hlarge hq
    exact ⟨y.toSingle, Except.map_eq_ok_iff.2 ⟨y, hy, rfl⟩⟩
  | bool => exact ⟨x, Native.toBool_eq_ok_iff.2 hx⟩

theorem keeps_iff_sound {t : ScalarType} {v : Native} {x : t.Carrier} (h : t.Becomes room v x) :
    t.Keeps v x ↔ t.Sound v := by
  cases t with
  | bytes =>
    refine exists_congr fun type => ⟨fun hv => ⟨x, hv⟩, ?_⟩
    rintro ⟨content, rfl⟩
    have hread : (Native.octets type content).toBytes room = .ok x := Native.toBytes_eq_ok_iff.2 h
    cases hread
    rfl
  | text =>
    refine ⟨fun hv => ⟨x, hv⟩, ?_⟩
    rintro ⟨s, rfl⟩
    exact h.resolve_right nofun
  | int32 | int64 => exact iff_of_true h trivial
  | double => exact iff_of_true h.2 trivial
  | float =>
    obtain ⟨-, q, y, hq, hy, hx⟩ := h
    constructor
    · rintro ⟨q', hq', hx'⟩
      cases hq.symm.trans hq'
      exact ⟨q, y, x, hq, hy, hx, hx'⟩
    · rintro ⟨q', y', x', hq', hy', hx', hkept⟩
      cases hq.symm.trans hq'
      refine ⟨q, hq, ?_⟩
      by_cases hnan : q = .nan
      · rwa [(Double.quantity_eq_nan_iff hy).2 hnan, ← hnan] at hx
      · -- both roundings are determined
        have hsame : y = y' := by
          have hbits := UInt64.toNat_inj.1 (hy.unique hy' hnan)
          cases y
          cases y'
          cases hbits
          rfl
        subst hsame
        rwa [hx.unique hx' fun h => hnan ((Double.quantity_eq_nan_iff hy).1 h)]
  | bool =>
    obtain ⟨n, hn, -, -, hx⟩ := h
    show v.count? = some (Bool.toInt x) ↔ v.count? = some 0 ∨ v.count? = some 1
    rw [hn]
    cases x
    · have hzero : n = 0 := by simpa using hx
      simp [hzero, Bool.toInt]
    · have hone : n ≠ 0 := hx.1 rfl
      simp [hone, Bool.toInt]

/-- A number that is a 64-bit float is what 32-bit floats are for. -/
theorem sound_of_quantity {v : Native} {y : Double} (h : v.quantity? = some y.quantity) :
    Sound .float v :=
  ⟨y.quantity, y, y.toSingle, h, y.rounds_quantity, y.rounds_toSingle, y.rounds_toSingle⟩

theorem store_eq (t : ScalarType) (v : Native) :
    t.store room v = (t.read room v).map t.content := by
  cases t <;> rfl

theorem storeList_eq (t : ScalarType) (items : List Native) :
    t.storeList room items = (items.mapM (t.read room)).map fun xs =>
      t.listContent (.ofList xs) := by
  cases t <;> rfl

theorem not_becomes_none (t : ScalarType) (x : t.Carrier) : ¬ t.Becomes room .none x := by
  cases t
  case bytes =>
    rintro (_ | ⟨hn, -⟩ | ⟨-, hitems, -⟩)
    · cases hn
    · cases hitems
  case text => rintro (h | h) <;> cases h
  case int32 | int64 => rintro ⟨⟩
  case double =>
    rintro ⟨-, q, hq, -⟩
    cases hq
  case float =>
    rintro ⟨-, q, y, hq, -⟩
    cases hq
  case bool =>
    rintro ⟨n, hn, -⟩
    cases hn

end ScalarType

/-! ## Converters -/

namespace Converter

/-- What a converter that puts scalars into its member in some way makes of an argument, and what is
read back from it: the scalar, or the list with one for each item. No value at all leaves the union
unset, except where bytes are asked for. -/
inductive Fills (R : (t : ScalarType) → Native → t.Carrier → Prop) :
    Converter → Native → Value → Native → Prop
  | unset {t : ScalarType} : t ≠ .bytes → Fills R (.scalar t) .none .unset .none
  | scalar {t : ScalarType} {v : Native} {x : t.Carrier} :
      R t v x → Fills R (.scalar t) v (.ofContent (t.content x)) (t.native x)
  | list {t : ScalarType} {v : Native} {items : List Native} {xs : List t.Carrier} :
      v.items? = some items → List.Forall₂ (R t) items xs →
      Fills R (.list t) v (.ofContent (t.listContent (.ofList xs))) (.list (xs.map t.native))

/-- Whether a converter is given what it is for. -/
def Sound : Converter → Native → Prop
  | scalar t, v => v = .none ∨ t.Sound v
  | list t, v => ∀ items, v.items? = some items → ∀ item ∈ items, t.Sound item
  | null, _ => False

variable {room : Nat} {R : (t : ScalarType) → Native → t.Carrier →
  Prop} {t : ScalarType} {v n : Native} {w : Value}

theorem fills_scalar_iff : (scalar t).Fills R v w n ↔
    (t ≠ .bytes ∧ v = .none ∧ w = .unset ∧ n = .none) ∨
      ∃ x, R t v x ∧ w = .ofContent (t.content x) ∧ n = t.native x := by
  constructor
  · rintro (ht | hx)
    · exact .inl ⟨ht, rfl, rfl, rfl⟩
    · exact .inr ⟨_, hx, rfl, rfl⟩
  · rintro (⟨ht, rfl, rfl, rfl⟩ | ⟨x, hx, rfl, rfl⟩)
    · exact .unset ht
    · exact .scalar hx

theorem fills_list_iff : (list t).Fills R v w n ↔
    ∃ items xs, v.items? = some items ∧ List.Forall₂ (R t) items xs ∧
      w = .ofContent (t.listContent (.ofList xs)) ∧ n = .list (xs.map t.native) := by
  constructor
  · intro h
    cases h with
    | list hitems hxs => exact ⟨_, _, hitems, hxs, rfl, rfl⟩
  · rintro ⟨items, xs, hitems, hxs, rfl, rfl⟩
    exact .list hitems hxs

/-- What is filled in is in the converter's own member and is read back from there. -/
theorem Fills.reads {c : Converter} (h : c.Fills R v w n) :
    w.unwrap = n ∧ (w.member? = c.name? ∨ w = .unset ∧ v = .none) := by
  cases h with
  | unset => exact ⟨rfl, .inr ⟨rfl, rfl⟩⟩
  | @scalar t v x => exact ⟨t.unwrap_content x, .inl (name?_scalar t x).symm⟩
  | @list t v items xs => exact ⟨t.unwrap_listContent _, .inl (name?_list t _).symm⟩

theorem convert_eq_ok_iff : t.convert room v = .ok w ↔
    (t ≠ .bytes ∧ v = .none ∧ w = .unset) ∨
      ∃ x, t.read room v = .ok x ∧ w = .ofContent (t.content x) := by
  have hstore : (t.store room v).map Value.ofContent = .ok w ↔
      ∃ x, t.read room v = .ok x ∧ w = .ofContent (t.content x) := by
    rw [t.store_eq, Except.map_eq_ok_iff]
    simp only [Except.map_eq_ok_iff]
    constructor
    · rintro ⟨_, ⟨x, hx, rfl⟩, rfl⟩
      exact ⟨x, hx, rfl⟩
    · rintro ⟨x, hx, rfl⟩
      exact ⟨_, ⟨x, hx, rfl⟩, rfl⟩
  -- nothing at all unsets the member, except where bytes are made of it
  by_cases hv : v = .none
  · subst hv
    have hread (x : t.Carrier) : t.read room .none ≠ .ok x := by cases t <;> nofun
    by_cases ht : t = .bytes
    · subst ht
      exact iff_of_false nofun fun h => h.elim (fun h => h.1 rfl) fun ⟨x, hx, _⟩ => hread x hx
    · have hconvert : t.convert room .none = .ok .unset := by
        cases t <;> first | rfl | exact absurd rfl ht
      rw [hconvert, Except.ok.injEq]
      constructor
      · rintro rfl
        exact .inl ⟨ht, rfl, rfl⟩
      · rintro (⟨-, -, rfl⟩ | ⟨x, hx, -⟩)
        · rfl
        · exact absurd hx (hread x)
  · have hconvert : t.convert room v = (t.store room v).map Value.ofContent := by
      cases t <;> cases v <;> first | rfl | exact absurd rfl hv
    rw [hconvert, hstore]
    simp [hv]

theorem convertList_eq_ok_iff : t.convertList room v = .ok w ↔
    ∃ items xs, v.items? = some items ∧
      List.Forall₂ (fun item x => t.read room item = .ok x) items xs ∧
      w = .ofContent (t.listContent (.ofList xs)) := by
  rw [ScalarType.convertList]
  cases v.items? with
  | none => simp
  | some items =>
    simp only [ScalarType.storeList_eq, Except.map_eq_ok_iff, mapM_eq_ok_iff, Option.some.injEq]
    constructor
    · rintro ⟨_, ⟨xs, hxs, rfl⟩, rfl⟩
      exact ⟨items, xs, rfl, hxs, rfl⟩
    · rintro ⟨_, xs, rfl, hxs, rfl⟩
      exact ⟨_, ⟨xs, hxs, rfl⟩, rfl⟩

theorem fills_of_apply {c : Converter} (hv : v.DividesAll) (h : c.apply room (some v) = .ok w) :
    ∃ n, c.Fills (ScalarType.Becomes room) v w n := by
  cases c with
  | scalar t =>
    simp only [fills_scalar_iff]
    obtain ⟨ht, hnone, hw⟩ | ⟨x, hx, hw⟩ := convert_eq_ok_iff.1 h
    · exact ⟨_, .inl ⟨ht, hnone, hw, rfl⟩⟩
    · exact ⟨_, .inr ⟨x, ScalarType.becomes_of_read hv.1 hx, hw, rfl⟩⟩
  | list t =>
    simp only [fills_list_iff]
    obtain ⟨items, xs, hitems, hxs, hw⟩ := convertList_eq_ok_iff.1 h
    have hread := (List.forall₂_and_left _ _).2 ⟨hv.2 items hitems, hxs⟩
    exact ⟨_, items, xs, hitems, hread.imp fun _ _ h => ScalarType.becomes_of_read h.1 h.2, hw, rfl⟩
  | null => cases h

theorem exists_apply_of_fills {c : Converter} (hv : v.DividesAll)
    (h : c.Fills (ScalarType.Becomes room) v w n) :
    ∃ w, c.apply room (some v) = .ok w := by
  cases h with
  | @unset t ht => exact ⟨_, convert_eq_ok_iff.2 (.inl ⟨ht, rfl, rfl⟩)⟩
  | @scalar t v x hx =>
    obtain ⟨y, hy⟩ := (ScalarType.exists_read_iff hv.1).2 ⟨x, hx⟩
    exact ⟨_, convert_eq_ok_iff.2 (.inr ⟨y, hy, rfl⟩)⟩
  | @list t v items xs hitems hxs =>
    have hbecomes := (List.forall₂_and_left _ _).1 (hxs.imp fun _ x hx => ⟨Exists.intro x hx, hx⟩)
    obtain ⟨ys, hys⟩ := exists_mapM_eq_ok_iff.2 fun item hitem =>
      (ScalarType.exists_read_iff (hv.2 items hitems item hitem)).2 (hbecomes.1 item hitem)
    exact ⟨_, convertList_eq_ok_iff.2 ⟨items, ys, hitems, mapM_eq_ok_iff.1 hys, rfl⟩⟩

/-! ## What is kept -/

theorem forall₂_keeps_iff {items : List Native} {xs : List t.Carrier}
    (h : List.Forall₂ (t.Becomes room) items xs) :
    List.Forall₂ t.Keeps items xs ↔ ∀ item ∈ items, t.Sound item := by
  induction h with
  | nil => simp
  | cons hx _ ih => rw [List.forall₂_cons, List.forall_mem_cons, ih, ScalarType.keeps_iff_sound hx]

/-- An argument is kept exactly if it is what the converter is for. -/
theorem fills_keeps_iff {c : Converter} (h : c.Fills (ScalarType.Becomes room) v w n) :
    c.Fills ScalarType.Keeps v w n ↔ c.Sound v := by
  cases h with
  | @unset t ht => exact iff_of_true (.unset ht) (.inl rfl)
  | @scalar t v x hx =>
    have hnone : v ≠ .none := by
      rintro rfl
      exact t.not_becomes_none x hx
    rw [Sound, or_iff_right hnone, ← ScalarType.keeps_iff_sound hx]
    refine ⟨fun h => ?_, .scalar⟩
    obtain ⟨-, hv, -⟩ | ⟨y, hy, hw, -⟩ := fills_scalar_iff.1 h
    · exact absurd hv hnone
    · rwa [t.content_injective (Option.some.inj (Value.mk.inj hw).1)]
  | @list t v items xs hitems hxs =>
    have hsound : (list t).Sound v ↔ ∀ item ∈ items, t.Sound item := by
      simp [Sound, hitems]
    rw [hsound, ← forall₂_keeps_iff hxs]
    refine ⟨fun h => ?_, .list hitems⟩
    obtain ⟨items', ys, hitems', hys, hw, -⟩ := fills_list_iff.1 h
    cases hitems.symm.trans hitems'
    have hlists := t.listContent_injective (Option.some.inj (Value.mk.inj hw).1)
    rwa [(ListMessage.mk.inj hlists).1]

/-- A converter accepts exactly the arguments of which something can become, and puts what becomes
of them into its own member, from where it is read back; only no value at all leaves the union
unset. It keeps what it was given, and nothing else, exactly if that is what it is for: for bytes
and texts these alone, for truth values also 0 and 1, for integers and 64-bit floats all that is
accepted, and for 32-bit floats the numbers that are rounded to the same by way of a 64-bit one, as
all 64-bit floats are. A 32-bit float is read back as a 64-bit one of the same quantity. -/
theorem apply_stores {c : Converter} {v : Native} (hv : v.DividesAll) :
    ((∃ w, c.apply room (some v) = .ok w) ↔ ∃ w n, c.Fills (ScalarType.Becomes room) v w n) ∧
      (∀ w, c.apply room (some v) = .ok w →
        c.Fills (ScalarType.Becomes room) v w w.unwrap ∧
          (w.member? = c.name? ∨ w = .unset ∧ v = .none) ∧
          (c.Fills ScalarType.Keeps v w w.unwrap ↔ c.Sound v)) ∧
      (∀ x : Single, (ScalarType.native .float x).quantity? = some x.quantity) ∧
      ∀ y : Double, (scalar .float).Sound (.float y) := by
  refine ⟨⟨fun ⟨w, hw⟩ => ⟨w, fills_of_apply hv hw⟩, fun ⟨w, n, h⟩ => exists_apply_of_fills hv h⟩,
    fun w hw => ?_, fun x => congrArg some x.quantity_toDouble, fun y =>
      .inr (ScalarType.sound_of_quantity rfl)⟩
  obtain ⟨n, hn⟩ := fills_of_apply hv hw
  obtain ⟨rfl, hmember⟩ := hn.reads
  exact ⟨hn, hmember, fills_keeps_iff hn⟩

/-- A byte array beside bytes is kept. -/
theorem apply_stores_octets :
    let v : Native := .list [.octets .byteArray [1, 2], .bytes [3]]
    v.DividesAll ∧ ∃ w, (list .bytes).apply 6 (some v) = .ok w ∧
      (list .bytes).Fills ScalarType.Keeps v w (.list [.bytes [1, 2], .bytes [3]]) := by
  intro v
  have hv : v.DividesAll := by
    refine ⟨trivial, ?_⟩
    rintro _ ⟨⟩
    simp [Native.Divides, Native.bytes]
  have happly :
      (list .bytes).apply 6 (some v) = .ok (.ofContent (.bytesList (.ofList [[1, 2], [3]]))) := rfl
  obtain ⟨-, -, hkeeps⟩ := (apply_stores hv).2.1 _ happly
  refine ⟨hv, _, happly, hkeeps.2 ?_⟩
  rintro _ ⟨⟩
  simp [ScalarType.Sound, Native.bytes]

/-- Where bytes are asked for, an integer makes up as many zeros, if there is room for them. -/
theorem zeros_made_up :
    (scalar .bytes).apply 6 (some (.int 5)) = .ok (.ofContent (.bytes [0, 0, 0, 0, 0])) ∧
      ¬ (scalar .bytes).Fills ScalarType.Keeps (.int 5) (.ofContent (.bytes [0, 0, 0, 0, 0]))
        (.bytes [0, 0, 0, 0, 0]) := by
  refine ⟨rfl, fun h => ?_⟩
  obtain ⟨-, hnone, -⟩ | ⟨x, ⟨type, hx⟩, -⟩ := fills_scalar_iff.1 h
  · cases hnone
  · cases hx

end Converter

end OnlineFeatures
