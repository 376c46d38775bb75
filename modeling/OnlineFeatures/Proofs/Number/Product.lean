import OnlineFeatures.Proofs.Number.Difference
import OnlineFeatures.Proofs.Number.FloatText

/-!
# Rounding keeps the order

Rounding a number to a whole number and rounding it to a float both depend on nothing but the
number, and a larger number is rounded to no less (`roundHalfEven_mono`,
`FloatFormat.pattern_mono`). So they are taken here as monotone functions of a rational number
(`wholeOf`, `FloatFormat.patternOf`), and what a float becomes by a product and a rounding is a
composition of these (`Double.mul_ofPattern`, `Double.rounded_ofPattern`).

A whole number is rounded to a float by keeping as many significant bits as the format has
(`FloatFormat.magnitude_pattern_nat`).
-/

namespace OnlineFeatures

/-! ## Whole numbers -/

/-- A quotient is rounded down up to an even half, and up from an odd half on. -/
theorem roundHalfEven_cases (n d : Nat) :
    (roundHalfEven n d = n / d ∧ (2 * (n % d) < d ∨ 2 * (n % d) = d ∧ n / d % 2 = 0)) ∨
      (roundHalfEven n d = n / d + 1 ∧ (d < 2 * (n % d) ∨ 2 * (n % d) = d ∧ n / d % 2 = 1)) := by
  simp only [roundHalfEven]
  split_ifs <;> omega

/-- A rounded quotient is half a unit away at most, and then it is even. -/
theorem roundHalfEven_spec (n : Nat) {d : Nat} (hd : 0 < d) :
    2 * n ≤ 2 * (d * roundHalfEven n d) + d ∧ 2 * (d * roundHalfEven n d) ≤ 2 * n + d ∧
      (2 * n = 2 * (d * roundHalfEven n d) + d ∨ 2 * (d * roundHalfEven n d) = 2 * n + d →
        roundHalfEven n d % 2 = 0) := by
  have hdivmod := Nat.div_add_mod n d
  have hmod := Nat.mod_lt n hd
  rcases roundHalfEven_cases n d with ⟨heq, hside⟩ | ⟨heq, hside⟩
  · rw [heq]
    omega
  · rw [heq, Nat.mul_add_one]
    omega

/-- Rounding a multiple of the divisor changes nothing. -/
theorem roundHalfEven_mul_eq_iff {n d : Nat} : roundHalfEven n d * d = n ↔ d ∣ n := by
  constructor
  · intro h
    exact ⟨_, (Nat.mul_comm _ _).trans h |>.symm⟩
  · intro h
    have hmod := Nat.mod_eq_zero_of_dvd h
    rcases roundHalfEven_cases n d with ⟨heq, -⟩ | ⟨-, hside⟩
    · rw [heq, Nat.div_mul_cancel h]
    · have hd : d = 0 := by omega
      obtain ⟨c, rfl⟩ := h
      rw [hd, Nat.mul_zero, Nat.zero_mul]

/-- The same of the number that the quotient is. -/
theorem roundHalfEven_bounds (n : Nat) {d : Nat} (hd : 0 < d) :
    (2 * roundHalfEven n d - 1 : ℚ) ≤ 2 * (n / d) ∧ (2 * (n / d) : ℚ) ≤ 2 * roundHalfEven n d + 1 ∧
      ((2 * (n / d) : ℚ) = 2 * roundHalfEven n d - 1 ∨
        (2 * (n / d) : ℚ) = 2 * roundHalfEven n d + 1 →
        roundHalfEven n d % 2 = 0) := by
  obtain ⟨hhigh, hlow, heven⟩ := roundHalfEven_spec n hd
  have hdPos : (0 : ℚ) < d := by exact_mod_cast hd
  rw [← mul_div_assoc, le_div_iff₀ hdPos, div_le_iff₀ hdPos, div_eq_iff hdPos.ne',
    div_eq_iff hdPos.ne']
  have hhighQ : (2 * n : ℚ) ≤ 2 * (d * roundHalfEven n d) + d := by exact_mod_cast hhigh
  have hlowQ : (2 * (d * roundHalfEven n d) : ℚ) ≤ 2 * n + d := by exact_mod_cast hlow
  refine ⟨by linarith, by linarith, fun htie => heven (htie.symm.imp (fun h => ?_) fun h => ?_)⟩
  · have hmiddle : (2 * n : ℚ) = 2 * (d * roundHalfEven n d) + d := by linarith
    exact_mod_cast hmiddle
  · have hmiddle : (2 * (d * roundHalfEven n d) : ℚ) = 2 * n + d := by linarith
    exact_mod_cast hmiddle

/-- A larger quotient is rounded to no less. -/
theorem roundHalfEven_mono {n d n' d' : Nat} (hd : 0 < d) (hd' : 0 < d')
    (h : (n / d : ℚ) ≤ n' / d') :
    roundHalfEven n d ≤ roundHalfEven n' d' := by
  obtain ⟨hlow, -, heven⟩ := roundHalfEven_bounds n hd
  obtain ⟨-, hhigh, heven'⟩ := roundHalfEven_bounds n' hd'
  by_contra hlt
  have hstep : (roundHalfEven n' d' + 1 : ℚ) ≤ roundHalfEven n d := by exact_mod_cast not_le.1 hlt
  -- both lie in the middle between the same neighbours, which cannot both be even
  have heven := heven (.inl (by linarith))
  have heven' := heven' (.inr (by linarith))
  have hnext : (roundHalfEven n d : ℚ) = roundHalfEven n' d' + 1 := by linarith
  have hnext : roundHalfEven n d = roundHalfEven n' d' + 1 := by exact_mod_cast hnext
  omega

theorem roundHalfEven_one (n : Nat) : roundHalfEven n 1 = n := by
  simp [roundHalfEven, Nat.mod_one]

/-- The whole number that a number is rounded to. -/
def wholeOf (x : ℚ) : Nat := roundHalfEven x.num.natAbs x.den

theorem natAbs_num_div_den {x : ℚ} (h : 0 ≤ x) : (x.num.natAbs / x.den : ℚ) = x := by
  conv_rhs => rw [← x.num_div_den]
  rw [Nat.cast_natAbs, abs_of_nonneg (Rat.num_nonneg.2 h)]

theorem roundHalfEven_eq_wholeOf {n d : Nat} (hd : 0 < d) :
    roundHalfEven n d = wholeOf (n / d) := by
  have hvalue := natAbs_num_div_den (x := n / d) (by positivity)
  exact le_antisymm (roundHalfEven_mono hd (Rat.den_pos _) hvalue.ge)
    (roundHalfEven_mono (Rat.den_pos _) hd hvalue.le)

theorem wholeOf_mono {x y : ℚ} (hx : 0 ≤ x) (h : x ≤ y) : wholeOf x ≤ wholeOf y := by
  refine roundHalfEven_mono x.den_pos y.den_pos ?_
  rw [natAbs_num_div_den hx, natAbs_num_div_den (hx.trans h)]
  exact h

theorem wholeOf_natCast (n : Nat) : wholeOf n = n := by
  rw [wholeOf, Rat.num_natCast, Rat.den_natCast, Int.natAbs_natCast, roundHalfEven_one]

/-! ## Floats -/

namespace FloatFormat

variable {f : FloatFormat}

theorem closer_mono {lower : Nat} {x y : ℚ} (h : x ≤ y) : f.closer lower x ≤ f.closer lower y := by
  rw [closer, closer]
  split_ifs with hx hy
  · exact le_rfl
  · exact Nat.le_succ lower
  · rename_i hy
    refine absurd ?_ hx
    rcases hy with hlt | ⟨heq, heven⟩
    · exact .inl (by linarith)
    · rcases h.lt_or_eq with hlt | rfl
      · exact .inl (by linarith)
      · exact .inr ⟨heq, heven⟩
  · exact le_rfl

theorem le_closer (lower : Nat) (x : ℚ) : lower ≤ f.closer lower x := by
  rw [closer]
  split <;> omega

theorem closer_le (lower : Nat) (x : ℚ) : f.closer lower x ≤ lower + 1 := by
  rw [closer]
  split <;> omega

/-- A larger number has no smaller pattern. -/
theorem pattern_mono (hf : 2 ≤ f.precision) {num den num' den' : Nat} (hden : 0 < den)
    (hden' : 0 < den') (h : (num / den : ℚ) ≤ num' / den') :
    f.pattern num den ≤ f.pattern num' den' := by
  obtain ⟨lower, hlow, hhigh, heq⟩ := pattern_eq_closer hf num hden
  obtain ⟨lower', hlow', hhigh', heq'⟩ := pattern_eq_closer hf num' hden'
  have hle : lower < lower' + 1 :=
    f.magnitude_strictMono.lt_iff_lt.1 ((hlow.trans h).trans_lt hhigh')
  have hcloser : f.closer lower (num / den) ≤ f.closer lower' (num' / den') := by
    rcases (Nat.lt_succ_iff.1 hle).lt_or_eq with hlt | rfl
    · exact (closer_le lower _).trans (hlt.trans_le (le_closer lower' _))
    · exact closer_mono h
  rw [heq, heq']
  omega

/-- The pattern that a number is rounded to. -/
def patternOf (f : FloatFormat) (x : ℚ) : Nat := f.pattern x.num.natAbs x.den

theorem pattern_eq_patternOf (hf : 2 ≤ f.precision) {num den : Nat} (hden : 0 < den) :
    f.pattern num den = f.patternOf (num / den) := by
  have hvalue := natAbs_num_div_den (x := num / den) (by positivity)
  exact pattern_congr hf hden (Rat.den_pos _) hvalue.symm

theorem patternOf_mono (hf : 2 ≤ f.precision) {x y : ℚ} (hx : 0 ≤ x) (h : x ≤ y) :
    f.patternOf x ≤ f.patternOf y := by
  refine pattern_mono hf x.den_pos y.den_pos ?_
  rw [natAbs_num_div_den hx, natAbs_num_div_den (hx.trans h)]
  exact h

/-- The number of a finite pattern is that of its quanta. -/
theorem magnitude_pattern {num den n d : Nat} {quantum : Int} (hnum : 0 < num)
    (hden : 0 < den)
    (hquantum : max (floorLog2 num den - (f.precision - 1 : Nat)) f.minExponent = quantum)
    (hscaled : scaleDown 2 num den quantum = (n, d)) (hfinite : f.pattern num den < f.infinity) :
    f.magnitude (f.pattern num den) = roundHalfEven n d * 2 ^ quantum := by
  obtain ⟨k, hk⟩ : ∃ k : Nat, quantum = f.minExponent + k :=
    ⟨(quantum - f.minExponent).toNat, by omega⟩
  obtain ⟨hd, hquotient⟩ := scaleDown_spec two_pos hden hscaled
  have hx : (num / den : ℚ) = n / d * 2 ^ (f.minExponent + k) := by
    rw [hquotient, ← hk]
    push_cast
    field_simp
  obtain ⟨hhigh, hlow⟩ := quanta_bounds hnum hden hd (hquantum.trans hk) hx
  have hround := roundHalfEven_cases n d
  have hpattern : f.pattern num den = min (k * f.binade + roundHalfEven n d) f.infinity := by
    rw [pattern, if_neg hnum.ne', hquantum]
    simp only [hscaled, show (quantum - f.minExponent).toNat = k by omega]
    rfl
  rw [show f.pattern num den = k * f.binade + roundHalfEven n d by omega,
    f.magnitude_add (by omega) (hlow.imp id fun h => by omega), hk]

/-! ## Whole numbers as floats -/

/-- A whole number with so many significant bits only, the last of them rounded. -/
def roundedBits (precision m : Nat) : Nat :=
  let unit := 2 ^ (m.log2 + 1 - precision)
  roundHalfEven m unit * unit

theorem floorLog2_nat {m : Nat} (hm : 0 < m) : floorLog2 m 1 = m.log2 := by
  have hone : (m.log2 : Int) - (1 : Nat).log2 = (m.log2 : Int) := by
    rw [show (1 : Nat).log2 = 0 by decide]
    omega
  rw [floorLog2, hone]
  exact if_pos ((Nat.one_mul _).trans_le (Nat.log2_self_le hm.ne'))

/-- A whole number is rounded to the bits of the format. -/
theorem magnitude_pattern_nat (hexponent : f.minExponent + (f.precision - 1 : Nat) ≤ 0)
    (hprecision : 0 < f.precision) {m : Nat} (hfinite : f.pattern m 1 < f.infinity) :
    f.magnitude (f.pattern m 1) = roundedBits f.precision m := by
  rcases Nat.eq_zero_or_pos m with rfl | hm
  · simp [pattern, magnitude_zero, roundedBits, roundHalfEven]
  have hquantum : max (floorLog2 m 1 - (f.precision - 1 : Nat)) f.minExponent =
      m.log2 - (f.precision - 1 : Nat) := by
    rw [floorLog2_nat hm]
    omega
  rcases le_or_gt (f.precision - 1) m.log2 with hlarge | hsmall
  · -- the last bits are cut off
    obtain ⟨j, hj⟩ : ∃ j, m.log2 = f.precision - 1 + j := ⟨m.log2 - (f.precision - 1), by omega⟩
    have hscaled : scaleDown 2 m 1 (j : Nat) = (m, 2 ^ j) := by
      simp [scaleDown]
    rw [show (m.log2 : Int) - (f.precision - 1 : Nat) = (j : Nat) by omega] at hquantum
    rw [magnitude_pattern hm Nat.one_pos hquantum hscaled hfinite, roundedBits,
      show m.log2 + 1 - f.precision = j by omega, zpow_natCast]
    push_cast
    rfl
  · -- all bits are kept
    obtain ⟨j, hj⟩ : ∃ j, f.precision - 1 = m.log2 + (j + 1) :=
      ⟨f.precision - 1 - m.log2 - 1, by omega⟩
    have hscaled : scaleDown 2 m 1 (Int.negSucc j) = (m * 2 ^ (j + 1), 1) := rfl
    rw [show (m.log2 : Int) - (f.precision - 1 : Nat) = Int.negSucc j by omega] at hquantum
    rw [magnitude_pattern hm Nat.one_pos hquantum hscaled hfinite, roundedBits,
      show m.log2 + 1 - f.precision = 0 by
        omega, pow_zero, roundHalfEven_one, roundHalfEven_one, zpow_negSucc]
    push_cast
    field_simp

/-- A whole number is kept exactly if its significant bits fit. -/
theorem roundedBits_eq_self_iff {precision m : Nat} :
    roundedBits precision m = m ↔ ∃ a k, m = a * 2 ^ k ∧ a < 2 ^ precision := by
  rw [roundedBits, roundHalfEven_mul_eq_iff]
  constructor
  · intro hdvd
    refine ⟨m / 2 ^ (m.log2 + 1 - precision), m.log2 + 1 - precision,
      (Nat.div_mul_cancel hdvd).symm, ?_⟩
    refine Nat.div_lt_of_lt_mul (Nat.lt_log2_self.trans_le ?_)
    rw [← pow_add]
    exact Nat.pow_le_pow_right Nat.two_pos (by omega)
  · rintro ⟨a, k, hm, ha⟩
    rcases Nat.eq_zero_or_pos m with hzero | hpos
    · exact hzero ▸ dvd_zero _
    have hlt : m < 2 ^ (precision + k) := by
      rw [hm, pow_add]
      exact Nat.mul_lt_mul_of_pos_right ha (Nat.two_pow_pos k)
    have hlog := (Nat.log2_lt hpos.ne').2 hlt
    exact (pow_dvd_pow 2 (by omega)).trans ⟨a, hm.trans (Nat.mul_comm _ _)⟩

/-- Rounding moves a number by half the unit of its last bit at most. -/
theorem roundedBits_near {precision m j : Nat} (h : m < 2 ^ (precision + j + 1)) :
    |(roundedBits precision m : ℤ) - m| ≤ 2 ^ j := by
  obtain ⟨hhigh, hlow, -⟩ := roundHalfEven_spec m (Nat.two_pow_pos (m.log2 + 1 - precision))
  have hunit : 2 ^ (m.log2 + 1 - precision) ≤ 2 * 2 ^ j := by
    rw [← pow_succ']
    refine Nat.pow_le_pow_right Nat.two_pos ?_
    rcases Nat.eq_zero_or_pos m with rfl | hpos
    · rw [show Nat.log2 0 = 0 by decide]
      omega
    · have := (Nat.log2_lt hpos.ne').2 h
      omega
  rw [roundedBits, Nat.mul_comm, abs_le]
  zify at hhigh hlow hunit ⊢
  constructor <;> linarith

end FloatFormat

namespace Double

theorem view_ofPattern {p : Nat} (hp : p < FloatFormat.double.infinity) (s : Bool) :
    ∃ m e, (ofPattern s p).view = .finite s m e ∧
      m * (2 : ℚ) ^ e = FloatFormat.double.magnitude p := by
  have hinfinity : FloatFormat.double.infinity < 2 ^ 63 := by decide
  have hbits : (ofPattern s p).bits.toNat = (if s then 2 ^ 63 else 0) + p := toNat_bits_ofPattern hp
  have hmod : (ofPattern s p).bits.toNat % 2 ^ 63 = p := by
    rw [hbits]
    split <;> omega
  have hsign : decide (2 ^ 63 ≤ (ofPattern s p).bits.toNat) = s := by
    rw [hbits]
    cases s
    · simp
      omega
    · simp
  obtain ⟨m, e, hview, hvalue⟩ := exists_view ((isFinite_iff _).2 (hmod.symm ▸ hp))
  rw [hsign] at hview
  rw [hmod] at hvalue
  exact ⟨m, e, hview, hvalue⟩

/-- The product of two floats is the product of their numbers, rounded. -/
theorem mul_ofPattern {p r : Nat} (hp : p < FloatFormat.double.infinity)
    (hr : r < FloatFormat.double.infinity) (s t : Bool) : (ofPattern s p).mul (ofPattern t r) =
      ofPattern (s ^^ t) (FloatFormat.double.patternOf
        (FloatFormat.double.magnitude p * FloatFormat.double.magnitude r)) := by
  obtain ⟨m, e, hview, hvalue⟩ := view_ofPattern hp s
  obtain ⟨n, d, hview', hvalue'⟩ := view_ofPattern hr t
  obtain ⟨hden, hquotient⟩ := binaryFraction_spec (m * n) (e + d)
  have hproduct : ((binaryFraction (m * n) (e + d)).1 / (binaryFraction (m * n) (e + d)).2 : ℚ) =
      FloatFormat.double.magnitude p * FloatFormat.double.magnitude r := by
    rw [hquotient, ← hvalue, ← hvalue', zpow_add₀ two_ne_zero]
    push_cast
    ring
  rw [Double.mul, lift₂, isNaN_ofPattern hp.le, isNaN_ofPattern hr.le, hview, hview', ← hproduct,
    ← FloatFormat.pattern_eq_patternOf (by decide) hden]
  rfl

/-- The whole number that a float is rounded to. -/
theorem rounded_ofPattern {p : Nat} (hp : p < FloatFormat.double.infinity) (s : Bool) :
    (ofPattern s p).rounded = .ok (if s then -(wholeOf (FloatFormat.double.magnitude p) : Int)
      else wholeOf (FloatFormat.double.magnitude p)) := by
  obtain ⟨m, e, hview, hvalue⟩ := view_ofPattern hp s
  obtain ⟨hden, hquotient⟩ := binaryFraction_spec m e
  rw [rounded, toWhole, hview, ← hvalue, ← hquotient, ← roundHalfEven_eq_wholeOf hden]

theorem rounded_infinity (s : Bool) :
    (ofPattern s FloatFormat.double.infinity).rounded = .error .infinity := by
  cases s <;> decide +kernel

/-- A NaN made quiet is one still. -/
theorem isNaN_quieted {x : Double} (h : x.isNaN = true) : x.quieted.isNaN = true := by
  by_contra hquieted
  have hle := (isNaN_eq_false_iff x.quieted).1 (Bool.eq_false_iff.2 hquieted)
  have hgrows : x.bits.toNat % 2 ^ 63 ≤ x.quieted.bits.toNat % 2 ^ 63 := by
    rw [quieted, UInt64.toNat_or, Nat.or_mod_two_pow]
    exact Nat.left_le_or
  exact Bool.eq_false_iff.1 ((isNaN_eq_false_iff x).2 (hgrows.trans hle)) h

theorem rounded_of_isNaN {x : Double} (h : x.isNaN = true) : x.rounded = .error .nan := by
  rw [isNaN] at h
  rw [rounded, toWhole]
  split at h
  · rename_i hview
    rw [hview]
  · cases h

theorem isFinite_of_toRat? {x : Double} {q : ℚ} (h : x.toRat? = some q) : x.isFinite = true := by
  rw [toRat?] at h
  rw [isFinite]
  cases hview : x.view with
  | finite => rfl
  | infinite s => rw [hview] at h; cases h
  | nan s payload => rw [hview] at h; cases h

/-! ## Whole numbers as doubles -/

theorem pattern_lt_infinity {num den : Nat} (hden : 0 < den) (h : num < overflowBound * den) :
    FloatFormat.double.pattern num den < FloatFormat.double.infinity := by
  by_contra hinfinite
  have hnone : ofFraction? false num den = none := if_neg hinfinite
  rw [ofFraction?_eq_none_iff hden] at hnone
  omega

theorem magnitude_pattern_nat {m : Nat} (h : m < 2 ^ 68) :
    FloatFormat.double.pattern m 1 < FloatFormat.double.infinity ∧
      FloatFormat.double.magnitude (FloatFormat.double.pattern m 1) =
        FloatFormat.roundedBits 53 m := by
  have hbound : 2 ^ 68 ≤ overflowBound := by
    have hpower {k : Nat} (hk : 68 ≤ k) : 2 ^ 68 ≤ (2 ^ 54 - 1) * 2 ^ k :=
      (Nat.pow_le_pow_right Nat.two_pos hk).trans (Nat.le_mul_of_pos_left _ (by decide))
    exact hpower (by decide)
  have hfinite := pattern_lt_infinity Nat.one_pos (show m < overflowBound * 1 by omega)
  exact ⟨hfinite, FloatFormat.magnitude_pattern_nat (by decide) (by decide) hfinite⟩

theorem magnitude_pattern_of_lt {m : Nat} (h : m < 2 ^ 53) :
    FloatFormat.double.magnitude (FloatFormat.double.pattern m 1) = m := by
  rw [(magnitude_pattern_nat (by omega)).2,
    FloatFormat.roundedBits_eq_self_iff.2 ⟨m, 0, by omega, h⟩]

/-- A whole number of at most 53 bits is a float. -/
theorem ofInt?_of_lt {n : Int} (h : n.natAbs < 2 ^ 53) :
    ∃ p, p < FloatFormat.double.infinity ∧ FloatFormat.double.magnitude p = n.natAbs ∧
      ofInt? n = some (ofPattern (n < 0) p) ∧ (ofPattern (n < 0) p).toRat? = some (n : ℚ) := by
  have hfinite := (magnitude_pattern_nat (show n.natAbs < 2 ^ 68 by omega)).1
  have hmagnitude := magnitude_pattern_of_lt h
  refine ⟨_, hfinite, hmagnitude, if_pos hfinite, ?_⟩
  have hsplit := signed_quotient n 1
  rw [Nat.cast_one, div_one, div_one] at hsplit
  rw [toRat?_ofPattern hfinite, hmagnitude, hsplit]
  simp only [decide_eq_true_eq]

end Double

end OnlineFeatures
