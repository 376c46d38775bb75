import OnlineFeatures.Proofs.Conversion.Moment
import OnlineFeatures.Proofs.Number.Product

/-!
# Timestamps of seconds

A float of seconds is multiplied by a billion, and the product is rounded twice: to a float, and
that to whole nanoseconds. Both keep the order, so the nanoseconds are a monotone function of the
float (`Timestamp.nanosOf_mono`).

Whole seconds given as a float are the same moment as given as an integer only if they keep all
their bits in the first rounding, which leaves 53 of them. This holds up to 2^62 nanoseconds on both
sides of 1970, and beyond exactly if enough of the last bits are zero (`Native.toTimestamp_whole`).
-/

namespace OnlineFeatures

namespace Timestamp

/-! ## Nanoseconds -/

theorem ofNanoseconds_eq_ok_iff {n : Int} {t : Timestamp} :
    ofNanoseconds n = .ok t ↔ t.Dated ∧ t.totalNanos = n ∧ t.unknown = [] := by
  rw [ofNanoseconds, ofMoment_eq_ok_iff, totalNanos, nanosPerSecond]
  constructor
  · rintro ⟨hdated, hseconds, hnanos, hunknown⟩
    exact ⟨hdated, by omega, hunknown⟩
  · rintro ⟨hdated, htotal, hunknown⟩
    have hnanos := hdated.nanos
    exact ⟨hdated, by omega, by omega, hunknown⟩

theorem exists_ofNanoseconds_iff {n : Int} :
    (∃ t, ofNanoseconds n = .ok t) ↔
      -62135596800 * 1000000000 ≤ n ∧ n < 253402300800 * 1000000000 := by
  rw [ofNanoseconds, exists_ofMoment_iff, nanosPerSecond]
  omega

/-! ## Integers of seconds -/

theorem ofWholeSeconds_eq_ok_iff {n : Int} {t : Timestamp} :
    ofWholeSeconds n = .ok t ↔ t.seconds.toInt = n ∧ t.nanos.toInt = 0 ∧ t.unknown = [] := by
  rw [ofWholeSeconds]
  constructor
  · intro h
    split at h
    · rename_i hrange
      obtain rfl := Except.ok.inj h
      exact ⟨Int64.toInt_ofInt_of_le (by omega) (by omega), rfl, rfl⟩
    · cases h
  · rintro ⟨rfl, hnanos, hunknown⟩
    have hlow := t.seconds.le_toInt
    have hhigh := t.seconds.toInt_lt
    obtain ⟨seconds, nanos, unknown⟩ := t
    obtain rfl : nanos = 0 := Int32.toInt_inj.1 hnanos
    obtain rfl : unknown = [] := hunknown
    rw [if_pos (by omega), Int64.ofInt_toInt, ofSeconds]

theorem exists_ofWholeSeconds_iff {n : Int} :
    (∃ t, ofWholeSeconds n = .ok t) ↔ -2 ^ 63 ≤ n ∧ n < 2 ^ 63 := by
  rw [ofWholeSeconds]
  split
  · exact iff_of_true ⟨_, rfl⟩ (by omega)
  · refine iff_of_false ?_ (by omega)
    rintro ⟨t, ⟨⟩⟩

/-- Whole seconds are in the calendar as a timestamp if they are as a number. -/
theorem dated_ofWholeSeconds {n : Int} {t : Timestamp} (h : ofWholeSeconds n = .ok t) :
    t.Dated ↔ -62135596800 ≤ n ∧ n ≤ 253402300799 := by
  obtain ⟨rfl, hnanos, -⟩ := ofWholeSeconds_eq_ok_iff.1 h
  exact ⟨Dated.seconds, fun hseconds => ⟨hseconds, by omega⟩⟩

/-! ## Floats of seconds -/

/-- The pattern of a billion times the number of a pattern. -/
def scaledPattern (p : Nat) : Nat :=
  FloatFormat.double.patternOf (FloatFormat.double.magnitude p * 1000000000)

/-- The nanoseconds that a float of seconds is rounded to, by the pattern of the float. -/
def nanosOf (p : Nat) : Nat := wholeOf (FloatFormat.double.magnitude (scaledPattern p))

theorem scaledPattern_mono : Monotone scaledPattern := by
  intro p r h
  have hmagnitude := FloatFormat.double.magnitude_strictMono.monotone h
  have hpos := FloatFormat.double.magnitude_nonneg p
  exact FloatFormat.patternOf_mono (by decide) (by positivity) (by linarith)

theorem nanosOf_mono : Monotone nanosOf := fun _ _ h =>
  wholeOf_mono (FloatFormat.double.magnitude_nonneg _)
    (FloatFormat.double.magnitude_strictMono.monotone (scaledPattern_mono h))

theorem scaledPattern_le_infinity (p : Nat) : scaledPattern p ≤ FloatFormat.double.infinity :=
  FloatFormat.pattern_le_infinity _ _ _

/-- A billion is a float. -/
theorem exists_billion : ∃ r, r < FloatFormat.double.infinity ∧ billion = .ofPattern false r ∧
    FloatFormat.double.magnitude r = 1000000000 := by
  have hmagnitude := Double.magnitude_pattern_of_lt (m := 1000000000) (by decide)
  rw [Nat.cast_ofNat] at hmagnitude
  exact ⟨_, (Double.magnitude_pattern_nat (by decide)).1, rfl, hmagnitude⟩

theorem rounded_mul_billion {p : Nat} (hp : p < FloatFormat.double.infinity) (s : Bool) :
    ((Double.ofPattern s p).mul billion).rounded =
      if scaledPattern p < FloatFormat.double.infinity then
        .ok (if s then -(nanosOf p : Int) else nanosOf p)
      else .error .infinity := by
  obtain ⟨r, hr, hbillion, hmagnitude⟩ := exists_billion
  rw [hbillion, Double.mul_ofPattern hp hr, hmagnitude, Bool.xor_false, ← scaledPattern]
  split
  · rename_i hfinite
    exact Double.rounded_ofPattern hfinite s
  · rename_i hinfinite
    rw [(scaledPattern_le_infinity p).antisymm (not_lt.1 hinfinite)]
    exact Double.rounded_infinity s

theorem rounded_mul_billion_of_not_finite {x : Double} (h : ¬ x.isFinite = true) :
    ∃ why, (x.mul billion).rounded = .error why := by
  have hbillion : billion.view = .finite false 8388608000000000 (-23) := by decide +kernel
  have hnumber : billion.isNaN = false := by decide +kernel
  cases hview : x.view with
  | finite s m e => exact absurd (by rw [Double.isFinite, hview]) h
  | infinite s =>
    have hx : x.isNaN = false := by rw [Double.isNaN, hview]
    refine ⟨.infinity, ?_⟩
    rw [Double.mul, Double.lift₂, hx, hnumber, hview, hbillion]
    exact Double.rounded_infinity _
  | nan s payload =>
    have hx : x.isNaN = true := by rw [Double.isNaN, hview]
    refine ⟨.nan, ?_⟩
    rw [Double.mul, Double.lift₂, if_pos hx]
    exact Double.rounded_of_isNaN (Double.isNaN_quieted hx)

/-- A float of seconds has a timestamp exactly if its nanoseconds have. -/
theorem ofFloat_ofPattern_eq_ok_iff {p : Nat} (hp : p < FloatFormat.double.infinity) (s : Bool)
    {t : Timestamp} :
    ofFloat (.ofPattern s p) = .ok t ↔ scaledPattern p < FloatFormat.double.infinity ∧
      ofNanoseconds (if s then -(nanosOf p : Int) else nanosOf p) = .ok t := by
  rw [ofFloat, rounded_mul_billion hp]
  split
  · rename_i n hn
    split at hn
    · rename_i hfinite
      obtain rfl := Except.ok.inj hn
      simp only [hfinite, true_and]
      cases ofNanoseconds (if s then -(nanosOf p : Int) else nanosOf p) <;> simp [Except.mapError]
    · cases hn
  · rename_i why hn
    split at hn
    · cases hn
    · rename_i hinfinite
      simp [hinfinite]

theorem dated_of_ofFloat {x : Double} {t : Timestamp} (h : ofFloat x = .ok t) : t.Dated := by
  rw [ofFloat] at h
  split at h
  · exact (ofNanoseconds_eq_ok_iff.1 (Except.mapError_eq_ok_iff.1 h)).1
  · cases h

/-! ## The borders of the calendar

The nanoseconds grow with the float, so two neighbours tell on which side of a border all floats
lie. -/

theorem nanosOf_of_rounded {p n : Nat} (hp : p < FloatFormat.double.infinity)
    (h : ((Double.ofPattern false p).mul billion).rounded = .ok (n : Int)) :
    scaledPattern p < FloatFormat.double.infinity ∧ nanosOf p = n := by
  rw [rounded_mul_billion hp] at h
  split at h
  · rename_i hfinite
    exact ⟨hfinite, by simpa using h⟩
  · cases h

/-- Two neighbours between which a border falls. -/
theorem nanosOf_lt_iff (next border p : Nat) {below above : Nat}
    (hnext : 0 < next ∧ next < FloatFormat.double.infinity)
    (hbelow : ((Double.ofPattern false (next - 1)).mul billion).rounded = .ok (below : Int))
    (habove : ((Double.ofPattern false next).mul billion).rounded = .ok (above : Int))
    (hborder : below < border ∧ border ≤ above) :
    scaledPattern p < FloatFormat.double.infinity ∧ nanosOf p < border ↔ p < next := by
  obtain ⟨hfinite, hnanos⟩ := nanosOf_of_rounded (by omega) hbelow
  obtain ⟨-, hnanos'⟩ := nanosOf_of_rounded hnext.2 habove
  constructor
  · rintro ⟨-, hlt⟩
    by_contra hge
    have := nanosOf_mono (not_lt.1 hge)
    omega
  · intro hlt
    have hle : p ≤ next - 1 := by omega
    exact ⟨(scaledPattern_mono hle).trans_lt hfinite,
      (nanosOf_mono hle).trans_lt (hnanos ▸ hborder.1)⟩

/-- No float is moved over the beginning of the calendar, as many seconds before 1970. -/
theorem nanosOf_first_iff {p : Nat} :
    scaledPattern p < FloatFormat.double.infinity ∧ nanosOf p ≤ 62135596800 * 1000000000 ↔
      FloatFormat.double.magnitude p ≤ 62135596800 := by
  have hfirst := Double.magnitude_pattern_of_lt (m := 62135596800) (by decide)
  have hbelow :
      ((Double.ofPattern false (FloatFormat.double.pattern 62135596800 1)).mul billion).rounded =
        .ok ((62135596800000000000 : Nat) : Int) := by decide +kernel
  have habove :
      ((Double.ofPattern false (FloatFormat.double.pattern 62135596800 1 + 1)).mul
        billion).rounded = .ok ((62135596800000008192 : Nat) : Int) := by decide +kernel
  have hborder :=
    nanosOf_lt_iff (FloatFormat.double.pattern 62135596800 1 + 1) (62135596800 * 1000000000 + 1) p
      (by decide +kernel) hbelow habove (by decide)
  rw [Nat.lt_succ_iff, Nat.lt_succ_iff] at hborder
  rw [hborder, ← FloatFormat.double.magnitude_strictMono.le_iff_le, hfirst, Nat.cast_ofNat]

/-- No float is moved over the end of the calendar. -/
theorem nanosOf_end_iff {p : Nat} :
    scaledPattern p < FloatFormat.double.infinity ∧ nanosOf p < 253402300800 * 1000000000 ↔
      FloatFormat.double.magnitude p < 253402300800 := by
  have hend := Double.magnitude_pattern_of_lt (m := 253402300800) (by decide)
  have hbelow :
      ((Double.ofPattern false (FloatFormat.double.pattern 253402300800 1 - 1)).mul
        billion).rounded = .ok ((253402300799999967232 : Nat) : Int) := by decide +kernel
  have habove :
      ((Double.ofPattern false (FloatFormat.double.pattern 253402300800 1)).mul billion).rounded =
        .ok ((253402300800000000000 : Nat) : Int) := by decide +kernel
  have hborder :=
    nanosOf_lt_iff (FloatFormat.double.pattern 253402300800 1) (253402300800 * 1000000000) p
      (by decide +kernel) hbelow habove (by decide)
  rw [hborder, ← FloatFormat.double.magnitude_strictMono.lt_iff_lt, hend, Nat.cast_ofNat]

/-- A float of seconds has a timestamp exactly if it is a number of the calendar. -/
theorem exists_ofFloat_iff {x : Double} :
    (∃ t, ofFloat x = .ok t) ↔ ∃ q, x.toRat? = some q ∧ -62135596800 ≤ q ∧ q < 253402300800 := by
  by_cases hfinite : x.isFinite = true
  · have hp := (Double.isFinite_iff x).1 hfinite
    rw [x.eq_ofPattern]
    generalize decide (2 ^ 63 ≤ x.bits.toNat) = s
    generalize x.bits.toNat % 2 ^ 63 = p at hp ⊢
    have hpos := FloatFormat.double.magnitude_nonneg p
    simp only [ofFloat_ofPattern_eq_ok_iff hp, exists_and_left, exists_ofNanoseconds_iff,
      Double.toRat?_ofPattern hp, Option.some.injEq, exists_eq_left']
    cases s
    · -- of the numbers that are not negative the end of the calendar is the only border
      have hend := nanosOf_end_iff (p := p)
      simp only [Bool.false_eq_true, if_false, one_mul]
      constructor
      · rintro ⟨hscaled, -, hlt⟩
        exact ⟨by linarith, hend.1 ⟨hscaled, by omega⟩⟩
      · rintro ⟨-, hlt⟩
        obtain ⟨hscaled, hlt⟩ := hend.2 hlt
        exact ⟨hscaled, by omega, by omega⟩
    · -- and of the others the beginning
      have hfirst := nanosOf_first_iff (p := p)
      simp only [if_true, neg_one_mul]
      constructor
      · rintro ⟨hscaled, hle, -⟩
        have hmagnitude := hfirst.1 ⟨hscaled, by omega⟩
        exact ⟨by linarith, by linarith⟩
      · rintro ⟨hle, -⟩
        obtain ⟨hscaled, hle⟩ := hfirst.2 (by linarith)
        exact ⟨hscaled, by omega, by omega⟩
  · obtain ⟨why, hwhy⟩ := rounded_mul_billion_of_not_finite hfinite
    have herror : ofFloat x = .error (.notWhole why) := by rw [ofFloat, hwhy]
    constructor
    · rintro ⟨t, ht⟩
      cases herror.symm.trans ht
    · rintro ⟨q, hq, -⟩
      exact absurd (Double.isFinite_of_toRat? hq) hfinite

end Timestamp

/-! ## Whole seconds -/

/-- The nanoseconds of whole seconds lose the bits beyond the first 53. -/
theorem Timestamp.nanosOf_whole {p n : Nat} (hp : FloatFormat.double.magnitude p = n)
    (h : n * 1000000000 < 2 ^ 68) :
    scaledPattern p < FloatFormat.double.infinity ∧
      nanosOf p = FloatFormat.roundedBits 53 (n * 1000000000) := by
  obtain ⟨hfinite, hmagnitude⟩ := Double.magnitude_pattern_nat h
  have hscaled : scaledPattern p = FloatFormat.double.pattern (n * 1000000000) 1 := by
    rw [scaledPattern, hp, FloatFormat.pattern_eq_patternOf (by decide) Nat.one_pos]
    push_cast
    rw [div_one]
  rw [nanosOf, hscaled, hmagnitude]
  exact ⟨hfinite, wholeOf_natCast _⟩

theorem signed_roundedBits (n : Int) :
    (if decide (n < 0) then -(FloatFormat.roundedBits 53 (n.natAbs * 1000000000) : Int)
      else FloatFormat.roundedBits 53 (n.natAbs * 1000000000)) =
      n.sign * FloatFormat.roundedBits 53 (n.natAbs * 1000000000) := by
  rcases lt_trichotomy n 0 with hneg | rfl | hpos
  · rw [Int.sign_eq_neg_one_of_neg hneg, if_pos (decide_eq_true hneg), neg_one_mul]
  · rfl
  · rw [Int.sign_eq_one_of_pos hpos, if_neg (by simpa using hpos.le), one_mul]

theorem sign_mul_roundedBits_eq_iff {n : Int} :
    n.sign * (FloatFormat.roundedBits 53 (n.natAbs * 1000000000) : Int) = n * 1000000000 ↔
      ∃ a k, n.natAbs * 1000000000 = a * 2 ^ k ∧ a < 2 ^ 53 := by
  rw [← FloatFormat.roundedBits_eq_self_iff]
  rcases lt_trichotomy n 0 with hneg | rfl | hpos
  · rw [Int.sign_eq_neg_one_of_neg hneg]
    omega
  · exact iff_of_true rfl rfl
  · rw [Int.sign_eq_one_of_pos hpos]
    omega

section Whole

variable {n : Int} (h : -62135596800 ≤ n ∧ n ≤ 253402300799)

include h

/-- The nanoseconds of whole seconds in the calendar are moved by 2^14 at most. -/
theorem abs_sign_mul_roundedBits_sub_le :
    |n.sign * (FloatFormat.roundedBits 53 (n.natAbs * 1000000000) : Int) - n *
      1000000000| ≤ 2 ^ 14 := by
  have hnear :
      |(FloatFormat.roundedBits 53 (n.natAbs * 1000000000) : Int) - (n.natAbs * 1000000000 : Nat)| ≤
        2 ^ 14 := FloatFormat.roundedBits_near (by omega)
  rw [abs_le] at hnear ⊢
  rcases lt_trichotomy n 0 with hneg | rfl | hpos
  · rw [Int.sign_eq_neg_one_of_neg hneg]
    omega
  · exact ⟨by decide, by decide⟩
  · rw [Int.sign_eq_one_of_pos hpos]
    omega

/-- Rounding does not lead out of the calendar, since its first second is kept. -/
theorem sign_mul_roundedBits_range :
    -62135596800 * 1000000000 ≤
      n.sign * (FloatFormat.roundedBits 53 (n.natAbs * 1000000000) : Int) ∧
      n.sign * (FloatFormat.roundedBits 53 (n.natAbs * 1000000000) : Int) <
        253402300800 * 1000000000 := by
  have hnear := abs_le.1 (abs_sign_mul_roundedBits_sub_le h)
  have hfirst : n = -62135596800 →
      n.sign * (FloatFormat.roundedBits 53 (n.natAbs * 1000000000) : Int) = n * 1000000000 := by
    rintro rfl
    exact sign_mul_roundedBits_eq_iff.2 ⟨474056982421875, 17, by decide, by decide⟩
  omega

end Whole

namespace Native

/-- What becomes of whole seconds in the calendar, given as an integer and as a float.

The integer is kept. The float is exact, and its timestamp has the nanoseconds of the integer with
the first 53 bits of them only, which is off by 2^14 nanoseconds at most. So the two are the same
exactly if the nanoseconds have no further bits, and up to 4611686018 seconds they never have. -/
theorem toTimestamp_whole {n : Int} (h : -62135596800 ≤ n ∧ n ≤ 253402300799) :
    ∃ (x : Double) (whole float : Timestamp),
      Double.ofInt? n = some x ∧ x.toRat? = some n ∧
      (Native.int n).toTimestamp = .ok whole ∧ whole.seconds.toInt = n ∧ whole.nanos.toInt = 0 ∧
      (Native.float x).toTimestamp = .ok float ∧
      float.totalNanos = n.sign * FloatFormat.roundedBits 53 (n.natAbs * 1000000000) ∧
      |float.totalNanos - n * 1000000000| ≤ 2 ^ 14 ∧
      (float = whole ↔ ∃ a k, n.natAbs * 1000000000 = a * 2 ^ k ∧ a < 2 ^ 53) ∧
      (n.natAbs ≤ 4611686018 → float = whole) := by
  obtain ⟨p, hp, hmagnitude, hx, hvalue⟩ := Double.ofInt?_of_lt (n := n) (by omega)
  obtain ⟨hscaled, hnanos⟩ := Timestamp.nanosOf_whole hmagnitude (by omega)
  obtain ⟨whole, hwhole⟩ :=
    Timestamp.exists_ofWholeSeconds_iff.2 (show -2 ^ 63 ≤ n ∧ n < 2 ^ 63 by omega)
  obtain ⟨hseconds, hzero, hunknownWhole⟩ := Timestamp.ofWholeSeconds_eq_ok_iff.1 hwhole
  obtain ⟨float, hfloat⟩ := Timestamp.exists_ofNanoseconds_iff.2 (sign_mul_roundedBits_range h)
  obtain ⟨hdated, htotal, hunknown⟩ := Timestamp.ofNanoseconds_eq_ok_iff.1 hfloat
  -- both timestamps lie in the calendar, so they are told by their nanoseconds
  have hsame : float = whole ↔
      n.sign * FloatFormat.roundedBits 53 (n.natAbs * 1000000000) = n * 1000000000 := by
    have hdatedWhole := (Timestamp.dated_ofWholeSeconds hwhole).2 h
    rw [hdated.eq_iff hdatedWhole (hunknown.trans hunknownWhole.symm), htotal, Timestamp.totalNanos,
      hseconds, hzero, Int.add_zero]
  refine ⟨_, whole, float, hx, hvalue, hwhole, hseconds, hzero, ?_, htotal, ?_, ?_,
    fun hsmall => ?_⟩
  · refine (Timestamp.ofFloat_ofPattern_eq_ok_iff hp _).2 ⟨hscaled, ?_⟩
    rw [hnanos, signed_roundedBits]
    exact hfloat
  · rw [htotal]
    exact abs_sign_mul_roundedBits_sub_le h
  · rw [hsame, sign_mul_roundedBits_eq_iff]
  · rw [hsame, sign_mul_roundedBits_eq_iff]
    exact ⟨n.natAbs * 1953125, 9, by omega, by omega⟩

/-- A second of the year 2023 is the same moment as an integer and as a float. -/
theorem toTimestamp_whole_recent :
    (-62135596800 ≤ (1700000000 : Int) ∧ (1700000000 : Int) ≤ 253402300799) ∧
      ∃ x t, Double.ofInt? 1700000000 = some x ∧ (int 1700000000).toTimestamp = .ok t ∧
        (float x).toTimestamp = .ok t := by
  have hrange : -62135596800 ≤ (1700000000 : Int) ∧ (1700000000 : Int) ≤ 253402300799 := by decide
  obtain ⟨x, whole, t, hx, -, hwhole, -, -, hfloat, -, -, -, hsame⟩ := toTimestamp_whole hrange
  exact ⟨hrange, x, t, hx, hsame (by decide) ▸ hwhole, hfloat⟩

/-- The first second after 1970 that is another moment as a float: 512 nanoseconds later. -/
theorem toTimestamp_whole_moved :
    ¬ ∀ n : Int, -62135596800 ≤ n → n ≤ 253402300799 →
      ∀ x, Double.ofInt? n = some x → (float x).toTimestamp = (int n).toTimestamp := by
  intro h
  have hsame := h 4611686019 (by decide) (by decide) ⟨0x41f12e0be8300000⟩ (by decide +kernel)
  have hmoved : (float ⟨0x41f12e0be8300000⟩).toTimestamp = .ok ⟨4611686019, 512, []⟩ := by
    decide +kernel
  rw [hmoved] at hsame
  cases hsame

end Native

end OnlineFeatures
