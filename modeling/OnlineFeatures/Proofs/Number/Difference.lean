import Mathlib.Algebra.Order.Ring.Nat
import Mathlib.Tactic.Lift
import Mathlib.Tactic.SplitIfs
import OnlineFeatures.Number.Binary

/-!
# Differences of finite floats

Sign apart, the patterns up to that of infinity stand for numbers, those below it for finite ones.
Rounding stays among them, and so the difference of two finite floats is a number, perhaps an
infinite one (`Double.isNaN_sub`), which no bound of infinity excludes.
-/

namespace OnlineFeatures

theorem FloatFormat.pattern_le_infinity (f : FloatFormat) (num den : Nat) :
    f.pattern num den ≤ f.infinity := by
  rw [pattern]
  split
  · exact Nat.zero_le _
  · exact Nat.min_le_right _ _

namespace Double

/-! ## Patterns and what they stand for -/

theorem signWeight_double : FloatFormat.double.signWeight = 2 ^ 63 := by decide

theorem infinity_double : FloatFormat.double.infinity = 2047 * 2 ^ 52 := by decide

/-- What a pattern stands for, by its parts. -/
theorem view_eq (x : Double) :
    let magnitude := x.bits.toNat % 2 ^ 63
    x.view =
      if magnitude / 2 ^ 52 = 0 then
        .finite (2 ^ 63 ≤ x.bits.toNat) (magnitude % 2 ^ 52) FloatFormat.double.minExponent
      else if magnitude / 2 ^ 52 = 2047 then
        if magnitude % 2 ^ 52 = 0 then .infinite (2 ^ 63 ≤ x.bits.toNat)
        else .nan (2 ^ 63 ≤ x.bits.toNat) (magnitude % 2 ^ 52)
      else
        .finite (2 ^ 63 ≤ x.bits.toNat) (magnitude % 2 ^ 52 + 2 ^ 52)
          (FloatFormat.double.minExponent + (magnitude / 2 ^ 52 : Nat) - 1) := by
  intro magnitude
  rw [view, FloatFormat.view, signWeight_double]
  rfl

theorem isNaN_eq_false_iff (x : Double) :
    x.isNaN = false ↔ x.bits.toNat % 2 ^ 63 ≤ FloatFormat.double.infinity := by
  rw [isNaN, view_eq, infinity_double]
  split_ifs <;> simp <;> omega

theorem isFinite_iff (x : Double) :
    x.isFinite = true ↔ x.bits.toNat % 2 ^ 63 < FloatFormat.double.infinity := by
  rw [isFinite, view_eq, infinity_double]
  split_ifs <;> simp <;> omega

theorem isNaN_of_isFinite {x : Double} (h : x.isFinite = true) : x.isNaN = false := by
  rw [isFinite_iff] at h
  rw [isNaN_eq_false_iff]
  omega

/-! ## Operations -/

theorem isNaN_ofPattern {p : Nat} (h : p ≤ FloatFormat.double.infinity) (negative : Bool) :
    (ofPattern negative p).isNaN = false := by
  rw [isNaN_eq_false_iff, ofPattern, FloatFormat.withSign, signWeight_double]
  rw [infinity_double] at h ⊢
  cases negative
  · simp
    omega
  · simp
    omega

theorem isNaN_ofScaled (zeroNegative : Bool) (n exponent : Int) :
    (ofScaled zeroNegative n exponent).isNaN = false :=
  isNaN_ofPattern (FloatFormat.pattern_le_infinity _ _ _) _

theorem isFinite_negated {x : Double} (h : x.isFinite = true) : x.negated.isFinite = true := by
  rw [isFinite_iff] at h ⊢
  rw [negated]
  split
  · exact h
  · rw [signWeight_double, UInt64.toNat_xor, Nat.xor_mod_two_pow]
    simpa using h

theorem isNaN_add {x y : Double} (hx : x.isFinite = true) (hy : y.isFinite = true) :
    (x.add y).isNaN = false := by
  have hfinite {z : Double} (hz : z.isFinite = true) : ∃ s m e, z.view = .finite s m e := by
    rw [isFinite] at hz
    split at hz
    · rename_i s m e hview
      exact ⟨s, m, e, hview⟩
    · cases hz
  obtain ⟨s, m, e, hxview⟩ := hfinite hx
  obtain ⟨t, n, d, hyview⟩ := hfinite hy
  rw [Double.add, lift₂, isNaN_of_isFinite hx, isNaN_of_isFinite hy, hxview, hyview]
  exact isNaN_ofScaled _ _ _

/-- The difference of two finite floats is a number. -/
theorem isNaN_sub {x y : Double} (hx : x.isFinite = true) (hy : y.isFinite = true) :
    (x.sub y).isNaN = false :=
  isNaN_add hx (isFinite_negated hy)

/-- Infinity bounds all numbers. -/
theorem le_infinity {x : Double} (h : x.isNaN = false) : x.le (infinity false) = true := by
  have hinfinity : (infinity false).view = .infinite false := by decide
  rw [isNaN] at h
  rw [Double.le, hinfinity]
  cases hview : x.view with
  | finite => rfl
  | infinite => simp
  | nan => simp [hview] at h

end Double

end OnlineFeatures
