import OnlineFeatures.Number.Shortest
import OnlineFeatures.Proofs.Number.Nearest

/-!
# Seventeen digits read back

The shortest decimal of a float rounds to that float (`pattern_shortestDecimal`), since one of at
most seventeen digits always does.

Two floats differ by at least one part in `2 ^ 53` of each (`FloatFormat.magnitude_le_distance`), so
whatever lies within one part in `2 ^ 54` of a float rounds to it
(`FloatFormat.pattern_eq_of_near`). Decimals with seventeen digits are closer together than that,
and so the search has found a decimal by then (`exists_shortestOfLength?`).
-/

namespace OnlineFeatures

/-! ## Counting digits -/

theorem digitCount_pos (n : Nat) : 0 < digitCount n := Nat.length_toDigits_pos

theorem digitCount_le_iff {n k : Nat} (hk : 0 < k) : digitCount n ≤ k ↔ n < 10 ^ k :=
  Nat.length_toDigits_le_iff (by decide) hk

/-- A positive number lies between the powers of ten that its digits count. -/
theorem exists_digitCount {n : Nat} (hn : 0 < n) :
    ∃ k, digitCount n = k + 1 ∧ 10 ^ k ≤ n ∧ n < 10 ^ (k + 1) := by
  obtain ⟨k, hk⟩ : ∃ k, digitCount n = k + 1 := ⟨_, (Nat.sub_add_cancel (digitCount_pos n)).symm⟩
  refine ⟨k, hk, ?_, (digitCount_le_iff (Nat.succ_pos k)).1 hk.le⟩
  by_contra hlt
  rcases Nat.eq_zero_or_pos k with rfl | hpos
  · exact hlt hn
  · have hfewer := (digitCount_le_iff hpos).2 (not_le.1 hlt)
    omega

/-- The place of the first digit of a number. -/
theorem leadingExponent_spec {num den : Nat} (hnum : 0 < num) (hden : 0 < den) :
    (10 : ℚ) ^ leadingExponent num den ≤ num / den ∧
      (num / den : ℚ) < 10 ^ (leadingExponent num den + 1) := by
  have hdenPos : (0 : ℚ) < den := by exact_mod_cast hden
  rw [leadingExponent, le_div_iff₀ hdenPos, div_lt_iff₀ hdenPos]
  split
  · rename_i hle
    obtain ⟨k, hk, hlow, hhigh⟩ := exists_digitCount (Nat.div_pos hle hden)
    rw [Nat.le_div_iff_mul_le hden] at hlow
    rw [Nat.div_lt_iff_lt_mul hden] at hhigh
    rw [hk, sub_add_cancel, Nat.cast_add_one, add_sub_cancel_right, ← Nat.cast_add_one,
      zpow_natCast, zpow_natCast]
    exact ⟨by exact_mod_cast hlow, by exact_mod_cast hhigh⟩
  · -- below one the place is that of the first digit of the reciprocal, rounded up and less one
    have htwo : 2 ≤ (den + num - 1) / num := by
      rw [Nat.le_div_iff_mul_le hnum]
      omega
    obtain ⟨c, hc⟩ : ∃ c, (den + num - 1) / num = c + 1 := ⟨_, (Nat.sub_add_cancel (by omega)).symm⟩
    have hquotient := Nat.div_mul_le_self (den + num - 1) num
    have hremainder := Nat.lt_mul_of_div_lt (Nat.lt_succ_self ((den + num - 1) / num)) hnum
    obtain ⟨k, hk, hlow, hhigh⟩ := exists_digitCount (show 0 < c by omega)
    rw [hc, add_mul, one_mul] at hquotient
    rw [hc, Nat.succ_eq_add_one, add_mul, one_mul] at hremainder
    have hden_le : den ≤ 10 ^ (k + 1) * num := by
      calc den ≤ (c + 1) * num := by omega
        _ ≤ 10 ^ (k + 1) * num := Nat.mul_le_mul_right num hhigh
    have hlt_den : 10 ^ k * num < den := by
      calc 10 ^ k * num ≤ c * num := Nat.mul_le_mul_right num hlow
        _ < den := by omega
    rw [hc, Nat.add_sub_cancel, hk, show -((k + 1 : Nat) : ℤ) + 1 = -(k : ℤ) by push_cast; ring,
      zpow_neg, zpow_neg,
      zpow_natCast, zpow_natCast, inv_mul_le_iff₀ (by positivity), lt_inv_mul_iff₀ (by positivity)]
    exact ⟨by exact_mod_cast hden_le, by exact_mod_cast hlt_den⟩

/-! ## Decimals as numbers -/

namespace DecimalDigits

/-- The number that a decimal stands for. -/
def value (d : DecimalDigits) : ℚ := d.digits * 10 ^ d.exponent

theorem fraction_pos (d : DecimalDigits) : 0 < d.fraction.2 := by
  rw [fraction]
  split
  · exact Nat.zero_lt_one
  · exact Nat.pow_pos (by decide)

theorem fraction_eq (d : DecimalDigits) : (d.fraction.1 / d.fraction.2 : ℚ) = d.value := by
  obtain ⟨digits, exponent⟩ := d
  cases exponent with
  | ofNat k => simp [fraction, value]
  | negSucc k => simp [fraction, value, zpow_negSucc, div_eq_mul_inv]

theorem pattern_eq (d : DecimalDigits) :
    d.pattern = FloatFormat.double.pattern d.fraction.1 d.fraction.2 := rfl

theorem value_dropZeros (count : Nat) (d : DecimalDigits) :
    (d.dropZeros count).value = d.value := by
  induction count generalizing d with
  | zero => rfl
  | succ count ih =>
    rw [dropZeros]
    split
    · rename_i hzero
      rw [ih, value, value]
      conv_rhs => rw [← Nat.div_add_mod d.digits 10, hzero.2]
      push_cast
      rw [zpow_add_one₀ (by norm_num)]
      ring
    · rfl

theorem value_trimmed (d : DecimalDigits) : d.trimmed.value = d.value := value_dropZeros _ d

end DecimalDigits

/-! ## Distances of floats -/

namespace FloatFormat

variable {f : FloatFormat}

/-- A float is at most `2 * binade` steps from zero, each as wide as the one that leads to it. -/
theorem magnitude_succ_le (f : FloatFormat) (p : Nat) :
    f.magnitude (p + 1) ≤ 2 * f.binade * (f.magnitude (p + 1) - f.magnitude p) := by
  obtain ⟨k, r, rfl, hhigh, hlow⟩ := f.exists_quantum p
  have hlow' : k = 0 ∨ f.binade ≤ r + 1 := hlow.imp id fun h => by omega
  have hcount : ((r + 1 : Nat) : ℚ) ≤ 2 * f.binade := by exact_mod_cast hhigh
  have hquantum : (0 : ℚ) < 2 ^ (f.minExponent + k) := by positivity
  rw [add_assoc, f.magnitude_add hhigh.le hlow, f.magnitude_add hhigh hlow', ← sub_mul, ← mul_assoc]
  refine mul_le_mul_of_nonneg_right ?_ hquantum.le
  push_cast at hcount ⊢
  linarith

/-- The distance of two floats is a part of each. -/
theorem magnitude_le_distance {p q : Nat} (hne : q ≠ p) :
    f.magnitude p ≤ 2 * f.binade * |f.magnitude q - f.magnitude p| := by
  have hmono := f.magnitude_strictMono.monotone
  have hbinade : (0 : ℚ) ≤ 2 * f.binade := by positivity
  rcases Nat.lt_or_gt_of_ne hne with hlt | hgt
  · obtain ⟨p, rfl⟩ : ∃ p', p = p' + 1 := ⟨p - 1, by omega⟩
    refine (f.magnitude_succ_le p).trans (mul_le_mul_of_nonneg_left ?_ hbinade)
    have hq : f.magnitude q ≤ f.magnitude p := hmono (Nat.le_of_lt_succ hlt)
    rw [abs_sub_comm]
    exact le_trans (by linarith) (le_abs_self _)
  · have hnext : f.magnitude p ≤ f.magnitude (p + 1) := hmono (Nat.le_succ p)
    have hq : f.magnitude (p + 1) ≤ f.magnitude q := hmono hgt
    refine (hnext.trans (f.magnitude_succ_le p)).trans (mul_le_mul_of_nonneg_left ?_ hbinade)
    exact le_trans (by linarith) (le_abs_self _)

/-- What lies close to a float rounds to it. -/
theorem pattern_eq_of_near (hf : 2 ≤ f.precision) {p num den : Nat} (hp : p < f.infinity)
    (hden : 0 < den) (hnear : 4 * f.binade * |(num / den : ℚ) - f.magnitude p| < f.magnitude p) :
    f.pattern num den = p := by
  obtain ⟨lower, hlow, hhigh, heq⟩ := pattern_eq_closer hf num hden
  obtain ⟨hnearest, -⟩ := closer_nearest hlow hhigh p
  set c := f.closer lower (num / den)
  have hc : c = p := by
    by_contra hne
    have hbinade : (0 : ℚ) ≤ 2 * f.binade := by positivity
    have htriangle := abs_sub_le (f.magnitude c) (num / den) (f.magnitude p)
    have hback := abs_sub_comm (f.magnitude p) (num / den : ℚ)
    have hdistance : |f.magnitude c - f.magnitude p| ≤ 2 * |(num / den : ℚ) - f.magnitude p| := by
      linarith
    have hfar := (magnitude_le_distance hne).trans (mul_le_mul_of_nonneg_left hdistance hbinade)
    linarith
  rw [heq, hc, Nat.min_eq_left hp.le]

/-- What a number is rounded to does not depend on how it is written as a fraction. -/
theorem pattern_congr (hf : 2 ≤ f.precision) {num den num' den' : Nat} (hden : 0 < den)
    (hden' : 0 < den') (h : (num / den : ℚ) = num' / den') :
    f.pattern num den = f.pattern num' den' := by
  obtain ⟨lower, hlow, hhigh, heq⟩ := pattern_eq_closer hf num hden
  obtain ⟨lower', hlow', hhigh', heq'⟩ := pattern_eq_closer hf num' hden'
  rw [← h] at hlow' hhigh' heq'
  have hmono := f.magnitude_strictMono
  have hle : lower < lower' + 1 := hmono.lt_iff_lt.1 (hlow.trans_lt hhigh')
  have hge : lower' < lower + 1 := hmono.lt_iff_lt.1 (hlow'.trans_lt hhigh)
  obtain rfl : lower = lower' := by omega
  rw [heq, heq']

end FloatFormat

theorem DecimalDigits.pattern_congr {d e : DecimalDigits} (h : d.value = e.value) :
    d.pattern = e.pattern := by
  rw [pattern_eq, pattern_eq]
  refine FloatFormat.pattern_congr (by decide) d.fraction_pos e.fraction_pos ?_
  rw [d.fraction_eq, e.fraction_eq, h]

theorem DecimalDigits.pattern_trimmed (d : DecimalDigits) : d.trimmed.pattern = d.pattern :=
  pattern_congr d.value_trimmed

/-! ## The search -/

section Search

variable {target num den count : Nat} {found : DecimalDigits}

theorem pattern_of_shortestOfLength? (h : shortestOfLength? target num den count = some found) :
    found.pattern = target := by
  simp only [shortestOfLength?] at h
  split at h
  · rename_i hbelow habove
    split at h <;> cases h
    · exact beq_iff_eq.1 hbelow
    · exact beq_iff_eq.1 habove
  · rename_i hbelow habove
    cases h
    exact beq_iff_eq.1 hbelow
  · rename_i hbelow habove
    cases h
    exact beq_iff_eq.1 habove
  · cases h

variable (hnum : 0 < num) (hden : 0 < den)

include hnum hden

/-- The two decimals of a length lie around the number. -/
theorem scaleDown_ten_spec {n d : Nat}
    (h : scaleDown 10 num den (leadingExponent num den - (count - 1 : Nat)) = (n, d)) :
    let step : ℚ := 10 ^ (leadingExponent num den - (count - 1 : Nat))
    (n / d : Nat) * step ≤ num / den ∧ (num / den : ℚ) < (n / d + 1 : Nat) * step ∧
      10 ^ (count - 1) * step ≤ num / den := by
  intro step
  obtain ⟨hlow, -⟩ := leadingExponent_spec hnum hden
  obtain ⟨hd, hquotient⟩ := scaleDown_spec (by decide) hden h
  have hdPos : (0 : ℚ) < d := by exact_mod_cast hd
  have hstep : 0 < step := by positivity
  have hx : (num / den : ℚ) = n / d * step := by
    rw [hquotient, Nat.cast_ofNat, div_mul_cancel₀ _ hstep.ne']
  have hleading : 10 ^ (count - 1) * step = (10 : ℚ) ^ leadingExponent num den := by
    rw [← zpow_natCast, ← zpow_add₀ (by norm_num)]
    congr 1
    omega
  refine ⟨?_, ?_, hleading.le.trans hlow⟩
  · rw [hx]
    exact mul_le_mul_of_nonneg_right Nat.cast_div_le hstep.le
  · rw [hx]
    refine mul_lt_mul_of_pos_right ?_ hstep
    rw [div_lt_iff₀ hdPos]
    exact_mod_cast Nat.lt_mul_of_div_lt (Nat.lt_succ_self (n / d)) hd

/-- One of the two decimals with seventeen digits next to a float rounds to it. -/
theorem exists_shortestOfLength? (htarget : target < FloatFormat.double.infinity)
    (hx : (num / den : ℚ) = FloatFormat.double.magnitude target) :
    ∃ found, shortestOfLength? target num den enoughDigits = some found := by
  rcases hscaled :
    scaleDown 10 num den (leadingExponent num den - (enoughDigits - 1 : Nat)) with ⟨n, d⟩
  obtain ⟨hbelow, habove, hstep⟩ := scaleDown_ten_spec hnum hden hscaled
  set exponent := leadingExponent num den - (enoughDigits - 1 : Nat) with hexponent
  have hpos : (0 : ℚ) < 10 ^ exponent := by positivity
  -- the steps of seventeen digits are finer than half the distance of neighbouring floats
  have hnear {e : DecimalDigits} (h : 2 * |e.value - num / den| ≤ 10 ^ exponent) :
      e.pattern = target := by
    rw [e.pattern_eq]
    refine FloatFormat.pattern_eq_of_near (by decide) htarget e.fraction_pos ?_
    rw [e.fraction_eq, ← hx, show FloatFormat.double.binade = 2 ^ 52 by decide]
    have hpowers : (2 : ℚ) ^ 53 < 10 ^ (enoughDigits - 1) := by
      rw [enoughDigits]
      norm_num
    calc 4 * ((2 ^ 52 : Nat) : ℚ) * |e.value - num / den| =
      2 ^ 53 * (2 * |e.value - num / den|) := by
          push_cast
          ring
      _ ≤ 2 ^ 53 * 10 ^ exponent := mul_le_mul_of_nonneg_left h (by positivity)
      _ < 10 ^ (enoughDigits - 1) * 10 ^ exponent := mul_lt_mul_of_pos_right hpowers hpos
      _ ≤ num / den := hstep
  -- one of the two decimals around the number is no farther than half a step
  have hone : (⟨n / d, exponent⟩ : DecimalDigits).pattern = target ∨
      (⟨n / d + 1, exponent⟩ : DecimalDigits).pattern = target := by
    push_cast at hbelow habove
    rcases le_total (2 * (num / den : ℚ)) ((2 * (n / d : Nat) + 1) * 10 ^ exponent) with hle | hle
    · refine .inl (hnear ?_)
      rw [DecimalDigits.value, abs_sub_comm, abs_of_nonneg (by linarith)]
      linarith
    · refine .inr (hnear ?_)
      rw [DecimalDigits.value, abs_of_nonneg (by push_cast; linarith)]
      push_cast
      linarith
  simp only [shortestOfLength?, ← hexponent, hscaled]
  split
  · split <;> exact ⟨_, rfl⟩
  · exact ⟨_, rfl⟩
  · exact ⟨_, rfl⟩
  · rename_i hbelow' habove'
    rcases hone with h | h
    · exact absurd h (beq_eq_false_iff_ne.1 hbelow')
    · exact absurd h (beq_eq_false_iff_ne.1 habove')

end Search

/-! ## The shortest decimal -/

theorem binaryFraction_spec (m : Nat) (e : Int) :
    0 < (binaryFraction m e).2 ∧
      ((binaryFraction m e).1 / (binaryFraction m e).2 : ℚ) = m * 2 ^ e := by
  cases e with
  | ofNat k => simp [binaryFraction]
  | negSucc k =>
    refine ⟨Nat.pow_pos (by decide), ?_⟩
    simp [binaryFraction, zpow_negSucc, div_eq_mul_inv]

theorem binaryFraction_pos {m : Nat} (hm : 0 < m) (e : Int) : 0 < (binaryFraction m e).1 := by
  cases e with
  | ofNat k => exact Nat.mul_pos hm (Nat.pow_pos (by decide))
  | negSucc k => exact hm

/-- The shortest decimal is one of those that were found. -/
theorem shortestDecimal_eq {target m : Nat} {e : Int} (hm : 0 < m)
    (htarget : target < FloatFormat.double.infinity)
    (hx : m * 2 ^ e = FloatFormat.double.magnitude target) :
    ∃ found : DecimalDigits, shortestDecimal target m e = found.trimmed ∧
      found.pattern = target := by
  obtain ⟨hden, hquotient⟩ := binaryFraction_spec m e
  have hnum := binaryFraction_pos hm e
  rw [shortestDecimal]
  generalize binaryFraction m e = fraction at hden hquotient hnum ⊢
  obtain ⟨num, den⟩ := fraction
  simp only at hden hquotient hnum ⊢
  obtain ⟨last, hlast⟩ := exists_shortestOfLength? hnum hden htarget (hquotient.trans hx)
  -- the search ends at seventeen digits at the latest
  cases hsearch : (List.range enoughDigits).findSome? fun k =>
    shortestOfLength? target num den (k + 1) with
  | none =>
    have hmem : enoughDigits - 1 ∈ List.range enoughDigits := by decide
    have hfailed := List.findSome?_eq_none_iff.1 hsearch _ hmem
    rw [show enoughDigits - 1 + 1 = enoughDigits by decide, hlast] at hfailed
    cases hfailed
  | some found =>
    obtain ⟨k, -, hfound⟩ := List.exists_of_findSome?_eq_some hsearch
    exact ⟨found, rfl, pattern_of_shortestOfLength? hfound⟩

/-- The shortest decimal of a float rounds to it. -/
theorem pattern_shortestDecimal {target m : Nat} {e : Int} (hm : 0 < m)
    (htarget : target < FloatFormat.double.infinity)
    (hx : m * 2 ^ e = FloatFormat.double.magnitude target) :
    (shortestDecimal target m e).pattern = target := by
  obtain ⟨found, heq, hpattern⟩ := shortestDecimal_eq hm htarget hx
  rw [heq, found.pattern_trimmed, hpattern]

end OnlineFeatures
