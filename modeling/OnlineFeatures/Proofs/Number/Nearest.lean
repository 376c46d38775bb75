import Mathlib.Algebra.Order.Field.Power
import Mathlib.Data.Nat.Cast.Order.Field
import Mathlib.Data.Rat.Cast.Order
import Mathlib.Tactic.FieldSimp
import Mathlib.Tactic.Linarith
import Mathlib.Tactic.Positivity
import Mathlib.Tactic.Ring
import OnlineFeatures.Number.Binary

/-!
# Rounding to the nearest float

`FloatFormat.pattern` is the one place where a number is rounded, and here it is shown to round to
nearest: no float of the format lies nearer to the number, and of two equally near ones it takes the
one whose last bit is zero (`FloatFormat.pattern_nearest`). It is infinite exactly from half a step
beyond the largest finite float on (`FloatFormat.infinity_le_pattern_iff`).

Both rest on two facts. Patterns of one sign count upward with the numbers they stand for, also past
the pattern of infinity (`FloatFormat.magnitude_strictMono`), so that only the two patterns around a
number compete. And the pattern is one of these two, by the side of their middle on which the number
lies (`FloatFormat.pattern_eq_closer`).
-/

namespace OnlineFeatures

/-! ## Quotients -/

theorem scaleDown_spec {b num den n d : Nat} {e : Int} (hb : 0 < b) (hden : 0 < den)
    (h : scaleDown b num den e = (n, d)) : 0 < d ∧ (n / d : ℚ) = num / den / (b : ℚ) ^ e := by
  cases e with
  | ofNat k =>
    simp only [scaleDown, Nat.pow_eq, Prod.mk.injEq] at h
    obtain ⟨rfl, rfl⟩ := h
    refine ⟨by positivity, ?_⟩
    rw [Int.ofNat_eq_natCast, zpow_natCast]
    push_cast
    rw [div_div]
  | negSucc k =>
    simp only [scaleDown, Nat.pow_eq, Prod.mk.injEq] at h
    obtain ⟨rfl, rfl⟩ := h
    refine ⟨hden, ?_⟩
    rw [zpow_negSucc, div_inv_eq_mul]
    push_cast
    ring

/-- The exponent of the binade that a number lies in. -/
theorem floorLog2_spec {num den : Nat} (hnum : 0 < num) (hden : 0 < den) :
    (2 : ℚ) ^ floorLog2 num den ≤ num / den ∧ (num / den : ℚ) < 2 ^ (floorLog2 num den + 1) := by
  have hnumLow : (2 : ℚ) ^ (num.log2 : ℤ) ≤ num := by
    exact_mod_cast Nat.log2_self_le hnum.ne'
  have hnumHigh : (num : ℚ) < 2 ^ ((num.log2 : ℤ) + 1) := by
    exact_mod_cast Nat.lt_log2_self (n := num)
  have hdenLow : (2 : ℚ) ^ (den.log2 : ℤ) ≤ den := by
    exact_mod_cast Nat.log2_self_le hden.ne'
  have hdenHigh : (den : ℚ) < 2 ^ ((den.log2 : ℤ) + 1) := by
    exact_mod_cast Nat.lt_log2_self (n := den)
  have hdenPos : (0 : ℚ) < den := by exact_mod_cast hden
  -- the lengths alone leave two binades, and one comparison tells which
  have hlow : (2 : ℚ) ^ ((num.log2 : ℤ) - den.log2 - 1) < num / den := by
    rw [lt_div_iff₀ hdenPos]
    calc (2 : ℚ) ^ ((num.log2 : ℤ) - den.log2 - 1) * den
        < 2 ^ ((num.log2 : ℤ) - den.log2 - 1) * 2 ^ ((den.log2 : ℤ) + 1) := by gcongr
      _ = 2 ^ (num.log2 : ℤ) := by rw [← zpow_add₀ two_ne_zero]; congr 1; ring
      _ ≤ num := hnumLow
  have hhigh : (num / den : ℚ) < 2 ^ ((num.log2 : ℤ) - den.log2 + 1) := by
    rw [div_lt_iff₀ hdenPos]
    calc (num : ℚ) < 2 ^ ((num.log2 : ℤ) + 1) := hnumHigh
      _ = 2 ^ ((num.log2 : ℤ) - den.log2 + 1) * 2 ^ (den.log2 : ℤ) := by
        rw [← zpow_add₀ two_ne_zero]; congr 1; ring
      _ ≤ 2 ^ ((num.log2 : ℤ) - den.log2 + 1) * den := by gcongr
  rcases hscaled : scaleDown 2 num den ((num.log2 : ℤ) - den.log2) with ⟨n, d⟩
  obtain ⟨hd, hquotient⟩ := scaleDown_spec two_pos hden hscaled
  have hcompare : d ≤ n ↔ (2 : ℚ) ^ ((num.log2 : ℤ) - den.log2) ≤ num / den := by
    rw [← one_le_div (by positivity : (0 : ℚ) < 2 ^ ((num.log2 : ℤ) - den.log2))]
    have hone : (1 : ℚ) ≤ n / d ↔ d ≤ n := by
      rw [one_le_div (by exact_mod_cast hd)]
      exact_mod_cast Iff.rfl
    rw [← hone, hquotient]
    norm_cast
  have hfloor : floorLog2 num den =
      if d ≤ n then (num.log2 : ℤ) - den.log2 else (num.log2 : ℤ) - den.log2 - 1 := by
    simp only [floorLog2, hscaled]
  rw [hfloor]
  split
  · rename_i hle
    exact ⟨hcompare.1 hle, hhigh⟩
  · rename_i hlt
    rw [sub_add_cancel]
    exact ⟨hlow.le, not_le.1 fun hle => hlt (hcompare.2 hle)⟩

/-! ## Magnitudes -/

namespace FloatFormat

variable (f : FloatFormat)

/-- The number of patterns in a binade. -/
def binade : Nat := Nat.pow 2 (f.precision - 1)

theorem binade_pos : 0 < f.binade := Nat.pow_pos Nat.two_pos

/-- The number that an unsigned pattern stands for, as if there were no largest exponent. -/
def magnitude (p : Nat) : ℚ :=
  if p / f.binade = 0 then p * 2 ^ f.minExponent
  else (p % f.binade + f.binade : Nat) * 2 ^ (f.minExponent + (p / f.binade : Nat) - 1)

/-- A whole multiple of a quantum, as a pattern. -/
theorem magnitude_add {k r : Nat} (hhigh : r ≤ 2 * f.binade) (hlow : k = 0 ∨ f.binade ≤ r) :
    f.magnitude (k * f.binade + r) = r * 2 ^ (f.minExponent + k) := by
  have hpos := f.binade_pos
  rw [magnitude]
  -- three cases: no binade is reached, one is entered, or it is filled up to the next one
  rcases lt_or_ge r f.binade with hsmall | hlarge
  · obtain rfl : k = 0 := hlow.resolve_right (not_le.2 hsmall)
    simp [Nat.div_eq_of_lt hsmall]
  · rcases hhigh.lt_or_eq with hlt | rfl
    · have hdiv : (k * f.binade + r) / f.binade = k + 1 := by
        rw [Nat.div_eq_iff hpos, add_mul]
        omega
      have hmod : (k * f.binade + r) % f.binade + f.binade = r := by
        rw [Nat.mul_add_mod', Nat.mod_eq_sub_mod hlarge, Nat.mod_eq_of_lt (by omega)]
        omega
      rw [if_neg (by omega), hdiv, hmod]
      push_cast
      ring_nf
    · have hdiv : (k * f.binade + 2 * f.binade) / f.binade = k + 2 := by
        rw [← add_mul, Nat.mul_div_cancel _ hpos]
      have hmod : (k * f.binade + 2 * f.binade) % f.binade = 0 := by
        rw [← add_mul, Nat.mul_mod_left]
      rw [if_neg (by omega), hdiv, hmod, zero_add]
      push_cast
      rw [show f.minExponent + ((k : ℤ) + 2) - 1 = f.minExponent + k + 1 by ring,
        zpow_add_one₀ two_ne_zero]
      ring

/-- A pattern counts quanta within its binade. -/
theorem exists_quantum (p : Nat) :
    ∃ k r, p = k * f.binade + r ∧ r < 2 * f.binade ∧ (k = 0 ∨ f.binade ≤ r) := by
  have hpos := f.binade_pos
  have hmod := Nat.mod_lt p hpos
  have hdecomposed := Nat.div_add_mod' p f.binade
  rcases Nat.eq_zero_or_pos (p / f.binade) with hzero | hdiv
  · refine ⟨0, p, by omega, ?_, .inl rfl⟩
    rw [hzero] at hdecomposed
    omega
  · obtain ⟨k, hk⟩ : ∃ k, p / f.binade = k + 1 := ⟨p / f.binade - 1, by omega⟩
    rw [hk, add_mul, one_mul] at hdecomposed
    exact ⟨k, f.binade + p % f.binade, by omega, by omega, .inr (by omega)⟩

theorem magnitude_strictMono : StrictMono f.magnitude := by
  refine strictMono_nat_of_lt_succ fun p => ?_
  obtain ⟨k, r, rfl, hhigh, hlow⟩ := f.exists_quantum p
  have hlow' : k = 0 ∨ f.binade ≤ r + 1 := hlow.imp id fun h => by omega
  rw [add_assoc, f.magnitude_add hhigh.le hlow, f.magnitude_add hhigh hlow']
  have hquantum : (0 : ℚ) < 2 ^ (f.minExponent + k) := by positivity
  push_cast
  linarith

theorem magnitude_zero : f.magnitude 0 = 0 := by
  simp [magnitude]

theorem magnitude_nonneg (p : Nat) : 0 ≤ f.magnitude p := by
  rw [← f.magnitude_zero]
  exact f.magnitude_strictMono.monotone (Nat.zero_le p)

/-! ## Rounding -/

/-- Of the two patterns around a number the one that is closer, and in the middle the even one. -/
def closer (lower : Nat) (x : ℚ) : Nat :=
  if 2 * x < f.magnitude lower + f.magnitude (lower + 1) ∨
      2 * x = f.magnitude lower + f.magnitude (lower + 1) ∧ lower % 2 = 0 then lower
  else lower + 1

variable {f}

theorem two_dvd_binade (hf : 2 ≤ f.precision) : 2 ∣ f.binade :=
  dvd_pow_self 2 (by omega)

/-- Rounding a number of quanta picks the closer of the patterns around. -/
theorem closer_quantum (hf : 2 ≤ f.precision) {k n d : Nat} (hd : 0 < d) {x : ℚ}
    (hx : x = n / d * 2 ^ (f.minExponent + k)) (hhigh : n / d < 2 * f.binade)
    (hlow : k = 0 ∨ f.binade ≤ n / d) :
    f.closer (k * f.binade + n / d) x = k * f.binade + roundHalfEven n d := by
  have hlow' : k = 0 ∨ f.binade ≤ n / d + 1 := hlow.imp id fun h => by omega
  have hparity : (k * f.binade + n / d) % 2 = n / d % 2 := by
    obtain ⟨m, hm⟩ := (two_dvd_binade hf).mul_left k
    omega
  have hquantum : (0 : ℚ) < 2 ^ (f.minExponent + k) := by positivity
  have hdPos : (0 : ℚ) < d := by exact_mod_cast hd
  have hsum : f.magnitude (k * f.binade + n / d) + f.magnitude (k * f.binade + n / d + 1) =
      (2 * (n / d : Nat) + 1) * 2 ^ (f.minExponent + k) := by
    rw [add_assoc, f.magnitude_add hhigh.le hlow, f.magnitude_add hhigh hlow']
    push_cast
    ring
  have hdivmod := Nat.div_add_mod n d
  have hmiddle : (2 * (n / d) + 1) * d = 2 * (d * (n / d)) + d := by ring
  -- dividing by the quantum turns both comparisons with the middle into ones of the remainder
  have hlt : 2 * x < (2 * (n / d : Nat) + 1) * 2 ^ (f.minExponent + k) ↔ 2 * (n % d) < d := by
    rw [hx, ← mul_assoc, mul_lt_mul_iff_left₀ hquantum, ← mul_div_assoc, div_lt_iff₀ hdPos]
    norm_cast
    omega
  have heq : 2 * x = (2 * (n / d : Nat) + 1) * 2 ^ (f.minExponent + k) ↔ 2 * (n % d) = d := by
    rw [hx, ← mul_assoc, mul_left_inj' hquantum.ne', ← mul_div_assoc, div_eq_iff hdPos.ne']
    norm_cast
    omega
  rw [closer, hsum, hparity]
  simp only [hlt, heq, roundHalfEven]
  split_ifs <;> omega

theorem binade_cast : (f.binade : ℚ) = 2 ^ ((f.precision - 1 : Nat) : ℤ) := by
  rw [zpow_natCast, binade, Nat.pow_eq]
  push_cast
  rfl

/-- A number has at most `2 * binade` quanta, and at least `binade` unless these are the
smallest. -/
theorem quanta_bounds {num den n d k : Nat} (hnum : 0 < num) (hden : 0 < den) (hd : 0 < d)
    (hk : max (floorLog2 num den - (f.precision - 1 : Nat)) f.minExponent = f.minExponent + k)
    (hx : (num / den : ℚ) = n / d * 2 ^ (f.minExponent + k)) :
    n / d < 2 * f.binade ∧ (k = 0 ∨ f.binade ≤ n / d) := by
  obtain ⟨hbinadeLow, hbinadeHigh⟩ := floorLog2_spec hnum hden
  have hdPos : (0 : ℚ) < d := by exact_mod_cast hd
  have hquantum : (0 : ℚ) < 2 ^ (f.minExponent + k) := by positivity
  -- with as many quanta as the precision allows, the leading bit stands at its place
  constructor
  · rw [Nat.div_lt_iff_lt_mul hd]
    have hlt : (n / d * 2 ^ (f.minExponent + k) : ℚ) < 2 * f.binade * 2 ^ (f.minExponent + k) := by
      calc (n / d * 2 ^ (f.minExponent + k) : ℚ) < 2 ^ (floorLog2 num den + 1) := hx ▸ hbinadeHigh
        _ ≤ 2 ^ (1 + ((f.precision - 1 : Nat) : ℤ) + (f.minExponent + k)) :=
          zpow_le_zpow_right₀ one_le_two (by omega)
        _ = 2 * f.binade * 2 ^ (f.minExponent + k) := by
          rw [zpow_add₀ two_ne_zero, zpow_add₀ two_ne_zero, zpow_one, binade_cast]
    rw [mul_lt_mul_iff_left₀ hquantum, div_lt_iff₀ hdPos] at hlt
    exact_mod_cast hlt
  · refine (Nat.eq_zero_or_pos k).imp id fun hkPos => ?_
    rw [Nat.le_div_iff_mul_le hd]
    have hle : (f.binade * 2 ^ (f.minExponent + k) : ℚ) ≤ n / d * 2 ^ (f.minExponent + k) := by
      calc (f.binade * 2 ^ (f.minExponent + k) : ℚ)
          = 2 ^ (((f.precision - 1 : Nat) : ℤ) + (f.minExponent + k)) := by
            rw [zpow_add₀ two_ne_zero ((f.precision - 1 : Nat) : ℤ), binade_cast]
        _ = 2 ^ floorLog2 num den := by congr 1; omega
        _ ≤ n / d * 2 ^ (f.minExponent + k) := hx ▸ hbinadeLow
    rw [mul_le_mul_iff_left₀ hquantum, le_div_iff₀ hdPos] at hle
    exact_mod_cast hle

/-- The pattern of a number is the closer one of the two around it, up to infinity. -/
theorem pattern_eq_closer (hf : 2 ≤ f.precision) (num : Nat) {den : Nat} (hden : 0 < den) :
    ∃ lower, f.magnitude lower ≤ num / den ∧ (num / den : ℚ) < f.magnitude (lower + 1) ∧
      f.pattern num den = min (f.closer lower (num / den)) f.infinity := by
  rcases Nat.eq_zero_or_pos num with rfl | hnum
  · have hone : f.magnitude 0 < f.magnitude 1 := f.magnitude_strictMono Nat.zero_lt_one
    rw [magnitude_zero] at hone
    refine ⟨0, by simp [magnitude_zero], by simpa using hone, ?_⟩
    rw [closer, if_pos (.inl (by simpa [magnitude_zero] using hone))]
    simp [pattern]
  · set quantum := max (floorLog2 num den - (f.precision - 1 : Nat)) f.minExponent with hquantum
    obtain ⟨k, hk⟩ : ∃ k : Nat, quantum = f.minExponent + k :=
      ⟨(quantum - f.minExponent).toNat, by omega⟩
    rcases hscaled : scaleDown 2 num den quantum with ⟨n, d⟩
    obtain ⟨hd, hquotient⟩ := scaleDown_spec two_pos hden hscaled
    have hdPos : (0 : ℚ) < d := by exact_mod_cast hd
    have hx : (num / den : ℚ) = n / d * 2 ^ (f.minExponent + k) := by
      rw [hquotient, ← hk]
      push_cast
      field_simp
    -- the floor of the quotient in quanta is the lower neighbour
    obtain ⟨hhigh, hlow⟩ := quanta_bounds hnum hden hd (hquantum ▸ hk) hx
    have hlow' : k = 0 ∨ f.binade ≤ n / d + 1 := hlow.imp id fun h => by omega
    refine ⟨k * f.binade + n / d, ?_, ?_, ?_⟩
    · rw [f.magnitude_add hhigh.le hlow, hx]
      gcongr
      exact Nat.cast_div_le
    · rw [add_assoc, f.magnitude_add hhigh hlow', hx]
      gcongr
      rw [div_lt_iff₀ hdPos]
      exact_mod_cast Nat.lt_mul_of_div_lt (Nat.lt_succ_self (n / d)) hd
    · rw [closer_quantum hf hd hx hhigh hlow, pattern, if_neg hnum.ne']
      simp only [← hquantum, hscaled, show (quantum - f.minExponent).toNat = k by omega]
      rfl

/-! ## Nearest patterns -/

/-- The closer of the two patterns around a number is nearest of all. -/
theorem closer_nearest {lower : Nat} {x : ℚ} (hlow : f.magnitude lower ≤ x)
    (hhigh : x < f.magnitude (lower + 1)) (p : Nat) :
    |f.magnitude (f.closer lower x) - x| ≤ |f.magnitude p - x| ∧
      (p ≠ f.closer lower x → |f.magnitude (f.closer lower x) - x| = |f.magnitude p - x| →
        f.closer lower x % 2 = 0) := by
  have hmono := f.magnitude_strictMono
  have hbelow : |f.magnitude lower - x| = x - f.magnitude lower := by
    rw [abs_sub_comm, abs_of_nonneg (by linarith)]
  have habove : |f.magnitude (lower + 1) - x| = f.magnitude (lower + 1) - x :=
    abs_of_nonneg (by linarith)
  -- a pattern is no nearer than that of the two on its side
  have hside : (p < lower ∧ x - f.magnitude lower < |f.magnitude p - x|) ∨ p = lower ∨
      p = lower + 1 ∨ (lower + 1 < p ∧ f.magnitude (lower + 1) - x < |f.magnitude p - x|) := by
    rcases lt_trichotomy p lower with hp | rfl | hp
    · have := hmono hp
      exact .inl ⟨hp, by rw [abs_sub_comm, abs_of_nonneg] <;> linarith⟩
    · exact .inr (.inl rfl)
    · rcases (Nat.succ_le_of_lt hp).eq_or_lt with rfl | hp
      · exact .inr (.inr (.inl rfl))
      · have := hmono hp
        exact .inr (.inr (.inr ⟨hp, by rw [abs_of_nonneg] <;> linarith⟩))
  rw [closer]
  split
  · rename_i hcloser
    rw [hbelow]
    rcases hside with ⟨-, hlt⟩ | rfl | rfl | ⟨-, hlt⟩
    · exact ⟨hlt.le, fun _ heq => absurd heq hlt.ne⟩
    · exact ⟨hbelow.ge, fun hne => absurd rfl hne⟩
    · rw [habove]
      rcases hcloser with hcloser | ⟨hmiddle, heven⟩
      · exact ⟨by linarith, fun _ heq => by linarith⟩
      · exact ⟨by linarith, fun _ _ => heven⟩
    · rcases hcloser with hcloser | ⟨hmiddle, heven⟩
      · exact ⟨by linarith, fun _ heq => by linarith⟩
      · exact ⟨by linarith, fun _ _ => heven⟩
  · rename_i hcloser
    rw [not_or, not_lt, not_and] at hcloser
    obtain ⟨hle, hodd⟩ := hcloser
    rw [habove]
    have htie : x - f.magnitude lower = f.magnitude (lower + 1) - x → (lower + 1) % 2 = 0 := by
      intro heq
      have := hodd (by linarith)
      omega
    rcases hside with ⟨-, hlt⟩ | rfl | rfl | ⟨-, hlt⟩
    · exact ⟨by linarith, fun _ heq => by linarith⟩
    · rw [hbelow]
      exact ⟨by linarith, fun _ heq => htie heq.symm⟩
    · exact ⟨habove.ge, fun hne => absurd rfl hne⟩
    · exact ⟨hlt.le, fun _ heq => absurd heq hlt.ne⟩

/-- The pattern of a number, unless it is infinite, is the nearest one; of two equally near ones it
is the even one. -/
theorem pattern_nearest (hf : 2 ≤ f.precision) {num den : Nat} (hden : 0 < den)
    (hfinite : f.pattern num den < f.infinity) (p : Nat) :
    |f.magnitude (f.pattern num den) - num / den| ≤ |f.magnitude p - num / den| ∧
      (p ≠ f.pattern num den →
        |f.magnitude (f.pattern num den) - num / den| = |f.magnitude p - num / den| →
          f.pattern num den % 2 = 0) := by
  obtain ⟨lower, hlow, hhigh, heq⟩ := pattern_eq_closer hf num hden
  have hcloser : f.pattern num den = f.closer lower (num / den) := by omega
  rw [hcloser]
  exact closer_nearest hlow hhigh p

/-- Between two even patterns there is one that is nearer to their middle. -/
theorem magnitude_between {p p' : Nat} (hlt : p < p') (heven : p % 2 = 0)
    (heven' : p' % 2 = 0) {t : ℚ} (htie : |f.magnitude p - t| = |f.magnitude p' - t|) :
    |f.magnitude (p + 1) - t| < |f.magnitude p - t| := by
  have hlow := f.magnitude_strictMono p.lt_succ_self
  have hhigh := f.magnitude_strictMono (show p + 1 < p' by omega)
  rw [Nat.succ_eq_add_one] at hlow
  have hmiddle : t - f.magnitude p = f.magnitude p' - t := by
    rcases abs_eq_abs.1 htie with h | h <;> linarith
  rw [abs_sub_comm (f.magnitude p), abs_of_pos (by linarith : 0 < t - _), abs_lt]
  constructor <;> linarith

/-- The pattern of a number is infinite exactly from half a step beyond the largest finite one
on. -/
theorem infinity_le_pattern_iff (hf : 2 ≤ f.precision) (hexponent : 0 < f.exponentBits) (num : Nat)
    {den : Nat} (hden : 0 < den) :
    f.infinity ≤ f.pattern num den ↔
      f.magnitude (f.infinity - 1) + f.magnitude f.infinity ≤ 2 * (num / den) := by
  obtain ⟨lower, hlow, hhigh, heq⟩ := pattern_eq_closer hf num hden
  have hmono := f.magnitude_strictMono
  have heven : f.infinity % 2 = 0 := Nat.mod_eq_zero_of_dvd ((two_dvd_binade hf).mul_left _)
  have hpos : 0 < f.infinity := by
    have : 1 < 2 ^ f.exponentBits := Nat.one_lt_two_pow hexponent.ne'
    exact Nat.mul_pos (by rw [Nat.pow_eq]; omega) f.binade_pos
  rcases lt_trichotomy lower (f.infinity - 1) with hlt | rfl | hgt
  · -- far below: both patterns around the number are finite
    have hcloser : f.closer lower (num / den) < f.infinity := by
      rw [closer]
      split <;> omega
    have hnext : f.magnitude (lower + 1) ≤ f.magnitude (f.infinity - 1) := hmono.monotone (by omega)
    have hlast : f.magnitude (f.infinity - 1) < f.magnitude f.infinity := hmono (by omega)
    constructor
    · intro h
      omega
    · intro h
      linarith
  · -- between the largest finite pattern, which is odd, and infinity
    rw [Nat.sub_add_cancel hpos] at hhigh
    rw [heq, closer, Nat.sub_add_cancel hpos]
    split
    · rename_i hcloser
      have hlt : 2 * (num / den : ℚ) < f.magnitude (f.infinity - 1) + f.magnitude f.infinity := by
        refine hcloser.resolve_right fun h => ?_
        omega
      constructor
      · intro h
        omega
      · intro h
        linarith
    · rename_i hcloser
      rw [not_or, not_lt] at hcloser
      simp [hcloser.1]
  · have hinfinite : f.magnitude f.infinity ≤ f.magnitude lower := hmono.monotone (by omega)
    have hlast : f.magnitude (f.infinity - 1) < f.magnitude f.infinity := hmono (by omega)
    have hcloser : f.infinity ≤ f.closer lower (num / den) := by
      rw [closer]
      split <;> omega
    constructor
    · intro _
      linarith
    · intro _
      omega

end FloatFormat

/-! ## The numbers of floats -/

/-- The number that a pattern stands for, if it is finite. -/
def FloatView.toRat? : FloatView → Option ℚ
  | finite s m e => some ((if s then -1 else 1) * (m * 2 ^ e))
  | _ => none

/-- The number that a float stands for, if it is finite. -/
def Double.toRat? (x : Double) : Option ℚ := x.view.toRat?

/-- What a float stands for: a number with a sign, which zero has as well, an infinity, or no
number. -/
inductive Quantity where
  | finite (negative : Bool) (magnitude : ℚ)
  | infinite (negative : Bool)
  | nan

/-- The number that a quantity is, if it is finite. -/
def Quantity.toRat? : Quantity → Option ℚ
  | finite s a => some ((if s then -1 else 1) * a)
  | _ => none

/-- The quantity that is viewed. -/
def FloatView.quantity : FloatView → Quantity
  | finite s m e => .finite s (m * 2 ^ e)
  | infinite s => .infinite s
  | nan .. => .nan

/-- A pattern stands for its magnitude up to that of infinity, and beyond it for no number. -/
theorem FloatFormat.quantity_view (f : FloatFormat) (hf : 0 < f.precision)
    (hexponent : 0 < f.exponentBits) (bits : Nat) :
    (f.view bits).quantity =
      if bits % f.signWeight < f.infinity then
        .finite (f.signWeight ≤ bits) (f.magnitude (bits % f.signWeight))
      else if bits % f.signWeight = f.infinity then .infinite (f.signWeight ≤ bits)
      else .nan := by
  have hweight : f.signWeight = 2 ^ f.exponentBits * f.binade := by
    rw [signWeight, binade, Nat.pow_eq, Nat.pow_eq, ← pow_add]
    congr 1
    omega
  have hbinade := f.binade_pos
  have hfields : 1 < 2 ^ f.exponentBits := Nat.one_lt_two_pow hexponent.ne'
  set p := bits % f.signWeight with hp
  have hpHigh : p / f.binade < 2 ^ f.exponentBits := by
    rw [Nat.div_lt_iff_lt_mul hbinade, ← hweight]
    exact Nat.mod_lt _ (hweight ▸ Nat.mul_pos (by omega) hbinade)
  have hinfinity : f.infinity = (2 ^ f.exponentBits - 1) * f.binade := rfl
  have hfinite : p < f.infinity ↔ p / f.binade ≠ 2 ^ f.exponentBits - 1 := by
    rw [hinfinity, ← Nat.div_lt_iff_lt_mul hbinade]
    omega
  have hdecomposed := Nat.div_add_mod' p f.binade
  rw [magnitude, view]
  simp only [← hp, show Nat.pow 2 (f.precision - 1) = f.binade from rfl, Nat.pow_eq]
  -- the exponent field tells zero and subnormals, then what is not finite, then the rest
  by_cases hzero : p / f.binade = 0
  · have hmod : p % f.binade = p := Nat.mod_eq_of_lt (Nat.lt_of_div_eq_zero hbinade hzero)
    rw [if_pos hzero, if_pos (hfinite.2 (by omega)), if_pos hzero, hmod]
    rfl
  · rw [if_neg hzero, if_neg hzero]
    by_cases hlast : p / f.binade = 2 ^ f.exponentBits - 1
    · rw [if_pos hlast, if_neg fun h => hfinite.1 h hlast]
      rw [hlast, ← hinfinity] at hdecomposed
      by_cases hfraction : p % f.binade = 0
      · rw [if_pos hfraction, if_pos (by omega)]
        rfl
      · rw [if_neg hfraction, if_neg (by omega)]
        rfl
    · rw [if_neg hlast, if_pos (hfinite.2 hlast)]
      rfl

theorem FloatFormat.toRat?_view (f : FloatFormat) (hf : 0 < f.precision)
    (hexponent : 0 < f.exponentBits) (bits : Nat) :
    (f.view bits).toRat? =
      if bits % f.signWeight < f.infinity then
        some ((if f.signWeight ≤ bits then -1 else 1) * f.magnitude (bits % f.signWeight))
      else none := by
  have hquantity (v : FloatView) : v.toRat? = v.quantity.toRat? := by cases v <;> rfl
  rw [hquantity, f.quantity_view hf hexponent]
  split_ifs with hfinite hsign <;> simp [Quantity.toRat?, *]

namespace Double

/-- Whether a float is the one that a number is rounded to: no finite float lies nearer, if another
one lies as near then its last bit is zero, and it has the sign of the number. -/
structure IsNearest (x : Double) (r : ℚ) : Prop where
  nearest : ∃ q, x.toRat? = some q ∧ ∀ (y : Double) (p : ℚ), y.toRat? = some p →
    |q - r| ≤ |p - r| ∧ (p ≠ q → |q - r| = |p - r| → x.bits.toNat % 2 = 0)
  sign : 2 ^ 63 ≤ x.bits.toNat ↔ r < 0

/-- A finite float has a sign and a finite pattern. -/
theorem toRat?_eq_some {x : Double} {q : ℚ} (h : x.toRat? = some q) :
    ∃ p, p < FloatFormat.double.infinity ∧
      x.bits.toNat = (if 2 ^ 63 ≤ x.bits.toNat then 2 ^ 63 else 0) + p ∧
      q = (if 2 ^ 63 ≤ x.bits.toNat then -1 else 1) * FloatFormat.double.magnitude p := by
  have hweight : FloatFormat.double.signWeight = 2 ^ 63 := by decide
  have hbits := x.bits.toNat_lt
  rw [toRat?, view, FloatFormat.toRat?_view _ (by decide) (by decide), hweight] at h
  split at h
  · rename_i hfinite
    refine ⟨_, hfinite, ?_, (Option.some.inj h).symm⟩
    split <;> omega
  · cases h

theorem toNat_bits_ofPattern {negative : Bool} {p : Nat} (hp : p < FloatFormat.double.infinity) :
    (ofPattern negative p).bits.toNat = (if negative then 2 ^ 63 else 0) + p := by
  have hinfinity : FloatFormat.double.infinity < 2 ^ 63 := by decide
  have hweight : FloatFormat.double.signWeight = 2 ^ 63 := by decide
  rw [ofPattern, FloatFormat.withSign, hweight]
  cases negative <;> simp <;> omega

theorem toRat?_ofPattern {negative : Bool} {p : Nat} (hp : p < FloatFormat.double.infinity) :
    (ofPattern negative p).toRat? =
      some ((if negative then -1 else 1) * FloatFormat.double.magnitude p) := by
  have hinfinity : FloatFormat.double.infinity < 2 ^ 63 := by decide
  have hweight : FloatFormat.double.signWeight = 2 ^ 63 := by decide
  rw [toRat?, view, FloatFormat.toRat?_view _ (by decide) (by decide),
    toNat_bits_ofPattern hp, hweight]
  cases negative
  · have hmod : p % 2 ^ 63 = p := Nat.mod_eq_of_lt (by omega)
    simp only [Bool.false_eq_true, if_false, Nat.zero_add, hmod, if_pos hp]
    rw [if_neg (by omega)]
  · have hmod : (2 ^ 63 + p) % 2 ^ 63 = p := by omega
    simp only [if_true, hmod, if_pos hp]
    rw [if_pos (by omega)]

/-- The distance of two numbers that are given by sign and magnitude. -/
theorem abs_signed_sub {u v : ℚ} (hu : 0 ≤ u) (hv : 0 ≤ v) (s t : Prop) [Decidable s]
    [Decidable t] :
    |(if s then -1 else 1) * u - (if t then -1 else 1) * v| = if s ↔ t then |u - v| else u + v := by
  by_cases hs : s <;> by_cases ht :
    t <;> simp only [hs, ht, if_true, if_false, iff_self, iff_true, true_iff]
  · rw [← abs_neg]
    congr 1
    ring
  · rw [← abs_neg, abs_of_nonneg] <;> linarith
  · rw [abs_of_nonneg] <;> linarith
  · rw [one_mul, one_mul]

theorem signed_quotient (num : Int) (den : Nat) :
    (num / den : ℚ) = (if num < 0 then -1 else 1) * (num.natAbs / den) := by
  rw [Nat.cast_natAbs]
  split
  · rename_i hneg
    rw [abs_of_neg hneg]
    push_cast
    ring
  · rename_i hpos
    rw [abs_of_nonneg (not_lt.1 hpos), one_mul]

/-- A quotient is rounded to the nearest float. -/
theorem isNearest_of_ofFraction? {num : Int} {den : Nat} (hden : 0 < den) {x : Double}
    (h : ofFraction? (num < 0) num.natAbs den = some x) : x.IsNearest (num / den) := by
  rw [ofFraction?] at h
  split at h
  case isFalse => cases h
  rename_i hfinite
  obtain rfl := Option.some.inj h
  have hbits : (ofPattern (decide (num < 0)) _).bits.toNat = _ := toNat_bits_ofPattern hfinite
  constructor
  · have hbest := FloatFormat.pattern_nearest (by decide) hden hfinite
    have hmagnitude := FloatFormat.double.magnitude_nonneg
    rw [ofFraction, signed_quotient]
    set p := FloatFormat.double.pattern num.natAbs den
    set a : ℚ := num.natAbs / den with ha
    have ha0 : 0 ≤ a := by positivity
    refine ⟨_, toRat?_ofPattern hfinite, fun y q hy => ?_⟩
    obtain ⟨m, -, -, rfl⟩ := toRat?_eq_some hy
    simp only [decide_eq_true_eq, abs_signed_sub (hmagnitude _) ha0, if_true, iff_self]
    obtain ⟨hle, htie⟩ := hbest m
    obtain ⟨hleZero, htieZero⟩ := hbest 0
    rw [FloatFormat.magnitude_zero, zero_sub, abs_neg, abs_of_nonneg ha0] at hleZero htieZero
    have heven : p % 2 = 0 → (ofPattern (decide (num < 0)) p).bits.toNat % 2 = 0 := by
      rw [hbits]
      split <;> omega
    split
    · -- on the side of the number the patterns compete
      rename_i hsign
      refine ⟨hle, fun hne heq => heven (htie (fun hm => hne ?_) heq)⟩
      rw [hm]
      simp only [hsign]
    · -- on the other side no float is nearer than zero
      have hm := hmagnitude m
      refine ⟨by linarith, fun hne heq => heven ?_⟩
      have hmZero : FloatFormat.double.magnitude m = 0 := by linarith
      refine htieZero (fun hp => hne ?_) (by linarith)
      rw [hmZero, ← hp, FloatFormat.magnitude_zero, mul_zero, mul_zero]
  · have hinfinity : FloatFormat.double.infinity < 2 ^ 63 := by decide
    have hsign : (num / den : ℚ) < 0 ↔ num < 0 := by
      rw [div_lt_iff₀ (by exact_mod_cast hden), zero_mul]
      exact_mod_cast Iff.rfl
    rw [hsign, ofFraction, hbits]
    simp only [decide_eq_true_eq]
    split <;> omega

/-- The sign of the nearest float is that of the number, and so the patterns alone compete for the
magnitude. -/
theorem IsNearest.exists_pattern {x : Double} {r : ℚ} (h : x.IsNearest r) :
    ∃ p, p < FloatFormat.double.infinity ∧ x.bits.toNat = (if r < 0 then 2 ^ 63 else 0) + p ∧
      ∀ m, m < FloatFormat.double.infinity →
        |FloatFormat.double.magnitude p - abs r| ≤ |FloatFormat.double.magnitude m - abs r| ∧
        (m ≠ p →
          |FloatFormat.double.magnitude p - abs r| = |FloatFormat.double.magnitude m - abs r| →
          p % 2 = 0) := by
  have hr : (if r < 0 then -1 else 1) * abs r = r := by
    split
    · rename_i hneg
      rw [abs_of_neg hneg]
      ring
    · rename_i hpos
      rw [abs_of_nonneg (not_lt.1 hpos), one_mul]
  -- with the sign of the number, distances are those of the magnitudes
  have hdistance (p : Nat) : |(if r < 0 then -1 else 1) * FloatFormat.double.magnitude p - r| =
      |FloatFormat.double.magnitude p - abs r| := by
    have h := abs_signed_sub (FloatFormat.double.magnitude_nonneg p) (abs_nonneg r) (r < 0) (r < 0)
    rwa [hr, if_pos Iff.rfl] at h
  obtain ⟨q, hq, hbest⟩ := h.nearest
  obtain ⟨p, hp, hbits, rfl⟩ := toRat?_eq_some hq
  simp only [h.sign] at hbits hbest
  refine ⟨p, hp, hbits, fun m hm => ?_⟩
  obtain ⟨hle, htie⟩ := hbest (ofPattern (decide (r < 0)) m) _ (toRat?_ofPattern hm)
  simp only [decide_eq_true_eq, hdistance] at hle htie
  refine ⟨hle, fun hne heq => ?_⟩
  have heven := htie (fun hvalue => hne ?_) heq
  · split at hbits <;> omega
  · refine FloatFormat.double.magnitude_strictMono.injective ?_
    split at hvalue <;> linarith

/-- A number is rounded to one float only. -/
theorem IsNearest.unique {x y : Double} {r : ℚ} (hx : x.IsNearest r) (hy : y.IsNearest r) :
    x = y := by
  obtain ⟨p, hp, hbits, hbest⟩ := hx.exists_pattern
  obtain ⟨p', hp', hbits', hbest'⟩ := hy.exists_pattern
  have htie := le_antisymm (hbest p' hp').1 (hbest' p hp).1
  have hsame : p = p' := by
    by_contra hne
    have heven := (hbest p' hp').2 (Ne.symm hne) htie
    have heven' := (hbest' p hp).2 hne htie.symm
    rcases Nat.lt_or_gt_of_ne hne with hlt | hlt
    · have hbetween := FloatFormat.magnitude_between hlt heven heven' htie
      exact absurd (hbest (p + 1) (by omega)).1 (not_le.2 hbetween)
    · have hbetween := FloatFormat.magnitude_between hlt heven' heven htie.symm
      exact absurd (hbest' (p' + 1) (by omega)).1 (not_le.2 hbetween)
  have hxy : x.bits = y.bits := UInt64.toNat_inj.1 (by rw [hbits, hbits', hsame])
  cases x
  cases y
  cases hxy
  rfl

/-- The magnitude from which on numbers are rounded to no finite float: half a step beyond the
largest. -/
def overflowBound : Nat := (2 ^ 54 - 1) * 2 ^ 970

/-- The bound is the middle between the largest finite float and the next power of two. -/
theorem magnitude_overflowBound :
    FloatFormat.double.magnitude (FloatFormat.double.infinity - 1) +
      FloatFormat.double.magnitude FloatFormat.double.infinity = 2 * overflowBound := by
  have hbinade : FloatFormat.double.binade = 2 ^ 52 := by decide
  have hlast : FloatFormat.double.magnitude (FloatFormat.double.infinity - 1) =
      (2 ^ 53 - 1) * (2 * 2 ^ 970) := by
    have h := FloatFormat.double.magnitude_add (k := 2045) (r := 2 * FloatFormat.double.binade - 1)
      (by decide) (.inr (by decide))
    rw [show FloatFormat.double.infinity - 1 =
      2045 * FloatFormat.double.binade + (2 * FloatFormat.double.binade - 1) by decide, h, hbinade,
      show FloatFormat.double.minExponent + (2045 : Nat) = ((970 + 1 : Nat) : ℤ) by decide,
      zpow_natCast, pow_succ (2 : ℚ) 970]
    -- the power is too big to be computed with, so it is left as a number
    generalize (2 : ℚ) ^ 970 = quantum
    norm_num
    ring
  have hinfinity : FloatFormat.double.magnitude FloatFormat.double.infinity = 2 ^ 54 * 2 ^ 970 := by
    have h := FloatFormat.double.magnitude_add (k := 2046) (r := FloatFormat.double.binade)
      (by decide) (.inr le_rfl)
    rw [show FloatFormat.double.infinity =
      2046 * FloatFormat.double.binade + FloatFormat.double.binade by decide, h, hbinade,
      show FloatFormat.double.minExponent + (2046 : Nat) = ((970 + 2 : Nat) : ℤ) by decide,
      zpow_natCast, pow_add (2 : ℚ) 970]
    generalize (2 : ℚ) ^ 970 = quantum
    norm_num
    ring
  rw [hlast, hinfinity, overflowBound, Nat.cast_mul, Nat.cast_pow, Nat.cast_ofNat]
  generalize (2 : ℚ) ^ 970 = quantum
  norm_num
  ring

/-- A quotient has a float unless it is too large. -/
theorem ofFraction?_eq_none_iff {negative : Bool} {num den : Nat} (hden : 0 < den) :
    ofFraction? negative num den = none ↔ overflowBound * den ≤ num := by
  have hdenPos : (0 : ℚ) < den := by exact_mod_cast hden
  calc ofFraction? negative num den = none
      ↔ FloatFormat.double.infinity ≤ FloatFormat.double.pattern num den := by
        rw [ofFraction?]
        split
        · rename_i hfinite
          exact ⟨nofun, fun h => absurd hfinite (not_lt.2 h)⟩
        · rename_i hinfinite
          exact ⟨fun _ => not_lt.1 hinfinite, fun _ => rfl⟩
    _ ↔ (2 * overflowBound : ℚ) ≤ 2 * (num / den) := by
        rw [FloatFormat.infinity_le_pattern_iff (by decide) (by decide) num hden,
          magnitude_overflowBound]
    _ ↔ overflowBound * den ≤ num := by
        rw [mul_le_mul_iff_right₀ two_pos, le_div_iff₀ hdenPos]
        exact_mod_cast Iff.rfl

end Double

end OnlineFeatures
