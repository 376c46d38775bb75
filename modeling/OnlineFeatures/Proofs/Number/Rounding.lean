import OnlineFeatures.Proofs.Number.Product

/-!
# What floats stand for

A float of either format stands for a quantity: a number with a sign, which zero has as well, an
infinity, or no number at all. `FloatFormat.Rounds` says, without the arithmetic that computes it,
which bits of a format a quantity is rounded to. A 64-bit float is made of a quotient by one
rounding (`Double.rounds_ofFraction`) and a 32-bit float of a 64-bit one by another
(`Double.rounds_toSingle`), and a 32-bit float is widened without any (`Single.quantity_toDouble`).
-/

namespace OnlineFeatures

namespace FloatFormat

variable {f : FloatFormat}

/-- Whether a pattern is the closest to a magnitude, the even one of two equally close ones, as if
there were no largest exponent. -/
def IsClosest (f : FloatFormat) (a : ℚ) (p : Nat) : Prop :=
  ∀ p', |f.magnitude p - a| ≤ |f.magnitude p' - a| ∧
    (p' ≠ p → |f.magnitude p - a| = |f.magnitude p' - a| → p % 2 = 0)

/-- Whether a quantity is rounded to certain bits. Beyond the largest exponent there is but the
infinity. -/
inductive Rounds (f : FloatFormat) : Quantity → Nat → Prop
  | finite {s : Bool} {a : ℚ} {p : Nat} :
      f.IsClosest a p → Rounds f (.finite s a) (f.withSign s (min p f.infinity))
  | infinite (s : Bool) : Rounds f (.infinite s) (f.withSign s f.infinity)
  | nan {bits : Nat} : f.infinity < bits % f.signWeight → Rounds f .nan bits

theorem isClosest_pattern (hf : 2 ≤ f.precision) (num : Nat) {den : Nat} (hden : 0 < den) :
    ∃ p, f.IsClosest (num / den) p ∧ f.pattern num den = min p f.infinity := by
  obtain ⟨lower, hlow, hhigh, heq⟩ := pattern_eq_closer hf num hden
  exact ⟨_, closer_nearest hlow hhigh, heq⟩

theorem IsClosest.unique {a : ℚ} {p p' : Nat} (h : f.IsClosest a p) (h' : f.IsClosest a p') :
    p = p' := by
  have htie := le_antisymm (h p').1 (h' p).1
  by_contra hne
  have heven := (h p').2 (Ne.symm hne) htie
  have heven' := (h' p).2 hne htie.symm
  rcases Nat.lt_or_gt_of_ne hne with hlt | hlt
  · exact absurd (h (p + 1)).1 (not_le.2 (magnitude_between hlt heven heven' htie))
  · exact absurd (h' (p' + 1)).1 (not_le.2 (magnitude_between hlt heven' heven htie.symm))

theorem isClosest_magnitude (p : Nat) : f.IsClosest (f.magnitude p) p := by
  intro p'
  rw [sub_self, abs_zero]
  refine ⟨abs_nonneg _, fun hne heq => absurd ?_ hne⟩
  exact f.magnitude_strictMono.injective (sub_eq_zero.1 (abs_eq_zero.1 heq.symm))

/-- A quantity that is a number or an infinity is rounded to no other bits. -/
theorem Rounds.unique {q : Quantity} {bits bits' : Nat} (h : f.Rounds q bits)
    (h' : f.Rounds q bits') (hq : q ≠ .nan) : bits = bits' := by
  cases h with
  | finite hp =>
    cases h' with
    | finite hp' => rw [hp.unique hp']
  | infinite =>
    cases h'
    rfl
  | nan => exact absurd rfl hq

theorem withSign_mod {m : Nat} (hm : m < f.signWeight) (s : Bool) :
    f.withSign s m % f.signWeight = m := by
  cases s
  · exact Nat.mod_eq_of_lt hm
  · rw [withSign, if_pos rfl, Nat.add_mod_left, Nat.mod_eq_of_lt hm]

theorem signWeight_le_withSign_iff {m : Nat} (hm : m < f.signWeight) (s : Bool) :
    f.signWeight ≤ f.withSign s m ↔ s = true := by
  cases s
  · simpa [withSign] using hm
  · simp [withSign]

theorem infinity_lt_signWeight (hf : 0 < f.precision) : f.infinity < f.signWeight := by
  have hweight : f.signWeight = 2 ^ f.exponentBits * f.binade := by
    rw [signWeight, binade, Nat.pow_eq, Nat.pow_eq, ← pow_add]
    congr 1
    omega
  have hpos : 0 < 2 ^ f.exponentBits := Nat.two_pow_pos _
  rw [hweight]
  exact Nat.mul_lt_mul_of_pos_right (Nat.sub_lt hpos Nat.one_pos) f.binade_pos

/-- Bits are those of their sign and their pattern. -/
theorem withSign_of_lt {bits : Nat} (h : bits < 2 * f.signWeight) :
    f.withSign (f.signWeight ≤ bits) (bits % f.signWeight) = bits := by
  rw [withSign]
  by_cases hsign : f.signWeight ≤ bits
  · have hmod : bits % f.signWeight = bits - f.signWeight := by
      rw [Nat.mod_eq_sub_mod hsign, Nat.mod_eq_of_lt (by omega)]
    simp only [hsign, decide_true, if_true, hmod]
    omega
  · simp only [hsign, decide_false, Bool.false_eq_true, if_false]
    exact Nat.mod_eq_of_lt (not_le.1 hsign)

/-- A float is rounded to itself. -/
theorem rounds_view (hf : 0 < f.precision) (hexponent : 0 < f.exponentBits) {bits : Nat}
    (h : bits < 2 * f.signWeight) : f.Rounds (f.view bits).quantity bits := by
  have hsame := withSign_of_lt h
  rw [f.quantity_view hf hexponent]
  split_ifs with hfinite hinfinity
  · have hrounds :=
      Rounds.finite (s := f.signWeight ≤ bits) (f.isClosest_magnitude (bits % f.signWeight))
    rwa [Nat.min_eq_left hfinite.le, hsame] at hrounds
  · have hrounds := Rounds.infinite (f := f) (f.signWeight ≤ bits)
    rwa [← hinfinity, hsame] at hrounds
  · exact .nan (by omega)

/-- What a pattern up to that of infinity stands for. -/
theorem quantity_withSign (hf : 0 < f.precision) (hexponent : 0 < f.exponentBits) {p : Nat}
    (hp : p ≤ f.infinity) (s : Bool) :
    (f.view (f.withSign s p)).quantity = if p < f.infinity then .finite s (f.magnitude p)
      else .infinite s := by
  have hweight := hp.trans_lt (f.infinity_lt_signWeight hf)
  have hsign : decide (f.signWeight ≤ f.withSign s p) = s := by
    simp [signWeight_le_withSign_iff hweight]
  rw [f.quantity_view hf hexponent, withSign_mod hweight, hsign]
  split_ifs with hfinite hinfinity
  · rfl
  · rfl
  · omega

/-- What is rounded as a float already is that float. -/
theorem quantity_of_rounds (hf : 0 < f.precision) (hexponent : 0 < f.exponentBits)
    {bits bits' : Nat} (h : f.Rounds (f.view bits).quantity bits') :
    (f.view bits').quantity = (f.view bits).quantity := by
  generalize hq : (f.view bits).quantity = q at h
  cases h with
  | @finite s a p hp =>
    rw [f.quantity_view hf hexponent] at hq
    split_ifs at hq with hfinite
    obtain ⟨-, rfl⟩ := Quantity.finite.inj hq
    obtain rfl := hp.unique (isClosest_magnitude _)
    rw [quantity_withSign hf hexponent (Nat.min_le_right _ _), Nat.min_eq_left hfinite.le,
      if_pos hfinite]
  | infinite s => rw [quantity_withSign hf hexponent le_rfl, if_neg (lt_irrefl _)]
  | nan hbits => rw [f.quantity_view hf hexponent, if_neg (by omega), if_neg (by omega)]

/-- Rounding makes no number of what is none, and none of what is one. -/
theorem quantity_eq_nan_iff (hf : 0 < f.precision) (hexponent : 0 < f.exponentBits)
    {q : Quantity} {bits : Nat} (h : f.Rounds q bits) :
    (f.view bits).quantity = .nan ↔ q = .nan := by
  cases h with
  | finite =>
    rw [quantity_withSign hf hexponent (Nat.min_le_right _ _)]
    split <;> exact iff_of_false nofun nofun
  | infinite s =>
    rw [quantity_withSign hf hexponent le_rfl, if_neg (lt_irrefl _)]
  | nan hbits =>
    rw [f.quantity_view hf hexponent, if_neg (by omega), if_neg (by omega)]

/-- A number with few enough significant bits is that of a pattern. The induction is on its
exponent: while the significand has room for another bit, it takes one from the exponent. -/
theorem exists_magnitude {m d : Nat} (hm : m < 2 * f.binade) :
    ∃ p, p < (d + 2) * f.binade ∧ f.magnitude p = m * 2 ^ (f.minExponent + d) := by
  induction d generalizing m with
  | zero =>
    have hmagnitude := f.magnitude_add (k := 0) hm.le (.inl rfl)
    rw [Nat.zero_mul, Nat.zero_add] at hmagnitude
    exact ⟨m, by omega, hmagnitude⟩
  | succ d ih =>
    rcases lt_or_ge m f.binade with hsmall | hlarge
    · obtain ⟨p, hp, hvalue⟩ := ih (m := 2 * m) (by omega)
      refine ⟨p, by linarith [f.binade_pos], ?_⟩
      rw [hvalue, Nat.cast_succ, ← add_assoc, zpow_add_one₀ two_ne_zero]
      push_cast
      ring
    · refine ⟨(d + 1) * f.binade + m, by linarith, f.magnitude_add hm.le (.inr hlarge)⟩

end FloatFormat

/-! ## Doubles -/

namespace Double

/-- What a float stands for. -/
def quantity (x : Double) : Quantity := x.view.quantity

theorem toNat_ofPattern {p : Nat} (hp : p < 2 ^ 63) (s : Bool) :
    (ofPattern s p).bits.toNat = FloatFormat.double.withSign s p := by
  rw [ofPattern, FloatFormat.withSign, signWeight_double]
  cases s <;> simp <;> omega

theorem quantity_ofPattern {p : Nat} (hp : p ≤ FloatFormat.double.infinity) (s : Bool) :
    (ofPattern s p).quantity =
      if p < FloatFormat.double.infinity then .finite s (FloatFormat.double.magnitude p)
        else .infinite s := by
  have hbound : FloatFormat.double.infinity < 2 ^ 63 := by decide
  rw [quantity, view, toNat_ofPattern (by omega)]
  exact FloatFormat.quantity_withSign (by decide) (by decide) hp s

theorem quantity_ofPattern_nan {p : Nat} (hp : FloatFormat.double.infinity < p)
    (hbound : p < 2 ^ 63) (s : Bool) :
    (ofPattern s p).quantity = .nan := by
  have hmod : FloatFormat.double.withSign s p % FloatFormat.double.signWeight = p :=
    FloatFormat.withSign_mod (by rwa [signWeight_double]) s
  rw [quantity, view, toNat_ofPattern hbound,
    FloatFormat.quantity_view _ (by decide) (by decide), hmod, if_neg hp.not_gt, if_neg hp.ne']

/-- A quotient is rounded once. -/
theorem rounds_ofFraction (s : Bool) (num : Nat) {den : Nat} (hden : 0 < den) :
    FloatFormat.double.Rounds (.finite s (num / den)) (ofFraction s num den).bits.toNat := by
  obtain ⟨p, hp, hpattern⟩ := FloatFormat.isClosest_pattern (f := .double) (by decide) num hden
  have hbound : FloatFormat.double.infinity < 2 ^ 63 := by decide
  rw [ofFraction, toNat_ofPattern (by omega), hpattern]
  exact .finite hp

theorem rounds_toDouble (n : Numeral) :
    FloatFormat.double.Rounds (.finite n.negative n.magnitude.value) n.toDouble.bits.toNat := by
  rw [Numeral.toDouble_eq, DecimalDigits.pattern_eq, ← DecimalDigits.fraction_eq]
  exact rounds_ofFraction _ _ n.magnitude.fraction_pos

theorem rounds_infinity (s : Bool) :
    FloatFormat.double.Rounds (.infinite s) (infinity s).bits.toNat := by
  rw [infinity, toNat_ofPattern (by decide)]
  exact .infinite s

theorem rounds_quietNaN (s : Bool) : FloatFormat.double.Rounds .nan (quietNaN s).bits.toNat := by
  refine .nan ?_
  cases s <;> decide

/-- A float is rounded to itself. -/
theorem rounds_quantity (x : Double) : FloatFormat.double.Rounds x.quantity x.bits.toNat := by
  refine FloatFormat.rounds_view (by decide) (by decide) ?_
  rw [signWeight_double]
  exact x.bits.toNat_lt

/-- A float that another one is rounded to stands for the same. -/
theorem quantity_of_rounds {x y : Double} (h : FloatFormat.double.Rounds x.quantity y.bits.toNat) :
    y.quantity = x.quantity :=
  FloatFormat.quantity_of_rounds (by decide) (by decide) h

theorem quantity_eq_nan_iff {q : Quantity} {x : Double}
    (h : FloatFormat.double.Rounds q x.bits.toNat) :
    x.quantity = .nan ↔ q = .nan :=
  FloatFormat.quantity_eq_nan_iff (by decide) (by decide) h

end Double

/-! ## Singles -/

namespace Single

/-- What a float stands for. -/
def quantity (x : Single) : Quantity := x.view.quantity

theorem toNat_bits {p : Nat} (hp : p < 2 ^ 31) (s : Bool) :
    (UInt32.ofNat (FloatFormat.single.withSign s p)).toNat = FloatFormat.single.withSign s p := by
  have hweight : FloatFormat.single.signWeight = 2 ^ 31 := by decide
  rw [FloatFormat.withSign, hweight]
  cases s <;> simp <;> omega

end Single

/-- A 32-bit float is made of a 64-bit one by another rounding. -/
theorem Double.rounds_toSingle (x : Double) :
    FloatFormat.single.Rounds x.quantity x.toSingle.bits.toNat := by
  rw [quantity, toSingle]
  cases hview : x.view with
  | finite s m e =>
    obtain ⟨hden, hvalue⟩ := binaryFraction_spec m e
    obtain ⟨p, hp, hpattern⟩ :=
      FloatFormat.isClosest_pattern (f := .single) (by decide) (binaryFraction m e).1 hden
    have hbound : FloatFormat.single.infinity < 2 ^ 31 := by decide
    show FloatFormat.single.Rounds (.finite s (m * 2 ^ e))
      (UInt32.ofNat (FloatFormat.single.withSign s (FloatFormat.single.pattern _ _))).toNat
    rw [Single.toNat_bits (by omega), hpattern, ← hvalue]
    exact .finite hp
  | infinite s =>
    show FloatFormat.single.Rounds (.infinite s)
      (UInt32.ofNat (FloatFormat.single.withSign s _)).toNat
    rw [Single.toNat_bits (by decide)]
    exact .infinite s
  | nan s payload =>
    show FloatFormat.single.Rounds .nan (UInt32.ofNat (FloatFormat.single.withSign s
      (FloatFormat.single.infinity + (payload / 0x20000000 ||| FloatFormat.single.quietBit)))).toNat
    have hpayload : payload < 2 ^ 52 := by
      rw [view_eq] at hview
      split_ifs at hview
      cases hview
      exact Nat.mod_lt _ (Nat.two_pow_pos 52)
    -- the payload keeps its upper bits, and the quiet bit keeps it from being blank
    have hhigh : payload / 0x20000000 ||| FloatFormat.single.quietBit < 2 ^ 23 :=
      Nat.or_lt_two_pow (by omega) (by decide)
    have hlow : 0 < payload / 0x20000000 ||| FloatFormat.single.quietBit :=
      Nat.lt_of_lt_of_le (by decide) Nat.right_le_or
    have hweight : FloatFormat.single.signWeight = 2 ^ 31 := by decide
    have hinfinity : FloatFormat.single.infinity = 255 * 2 ^ 23 := by decide
    rw [Single.toNat_bits (by omega)]
    refine .nan ?_
    rw [FloatFormat.withSign_mod (by omega)]
    omega

/-- A finite 32-bit float has few significant bits and a small exponent. -/
theorem Single.view_bounds {x : Single} {s : Bool} {m : Nat} {e : Int}
    (h : x.view = .finite s m e) :
    m < 2 ^ 24 ∧ ∃ d < 2000, e = FloatFormat.double.minExponent + (d : Nat) := by
  have hmin : FloatFormat.single.minExponent = -149 := by decide
  have hmin' : FloatFormat.double.minExponent = -1074 := by decide
  rw [view, FloatFormat.view, hmin] at h
  simp only [show FloatFormat.single.precision - 1 = 23 from rfl, Nat.pow_eq] at h
  set p := x.bits.toNat % FloatFormat.single.signWeight
  have hp : p < 2 ^ 31 := Nat.mod_lt _ (by decide)
  split_ifs at h <;> cases h
  · exact ⟨by omega, 925, by omega, by omega⟩
  · exact ⟨by omega, (925 + p / 2 ^ 23 - 1), by omega, by omega⟩

/-- A 32-bit float is widened without rounding. -/
theorem Single.quantity_toDouble (x : Single) : x.toDouble.quantity = x.quantity := by
  rw [quantity, toDouble]
  cases hview : x.view with
  | finite s m e =>
    obtain ⟨hm, d, hd, rfl⟩ := view_bounds hview
    obtain ⟨p, hp, hvalue⟩ :=
      FloatFormat.exists_magnitude (f := .double) (m := m) (d := d) (hm.trans (by decide))
    have hfinite : p < FloatFormat.double.infinity :=
      hp.trans_le (Nat.mul_le_mul_right _ (show d + 2 ≤ 2 ^ 11 - 1 by omega))
    obtain ⟨hden, hfraction⟩ := binaryFraction_spec m (FloatFormat.double.minExponent + (d : Nat))
    -- a number that is a float of the wider format is rounded to itself
    have hrounds :=
      Double.rounds_ofFraction s
        (binaryFraction m (FloatFormat.double.minExponent + (d : Nat))).1 hden
    have hquantity :
        (Double.ofPattern s p).quantity = .finite s (FloatFormat.double.magnitude p) := by
      rw [Double.quantity_ofPattern hfinite.le, if_pos hfinite]
    rw [hfraction, ← hvalue, ← hquantity] at hrounds
    exact (Double.quantity_of_rounds hrounds).trans (by rw [hquantity, hvalue]; rfl)
  | infinite s =>
    show (Double.infinity s).quantity = .infinite s
    rw [Double.infinity, Double.quantity_ofPattern le_rfl, if_neg (lt_irrefl _)]
  | nan s payload =>
    have hpayload : payload < 2 ^ 23 := by
      rw [view, FloatFormat.view] at hview
      split_ifs at hview
      cases hview
      exact Nat.mod_lt _ (Nat.two_pow_pos 23)
    have hhigh : payload * 0x20000000 ||| FloatFormat.double.quietBit < 2 ^ 52 :=
      Nat.or_lt_two_pow (by omega) (by decide)
    have hlow : 0 < payload * 0x20000000 ||| FloatFormat.double.quietBit :=
      Nat.lt_of_lt_of_le (by decide) Nat.right_le_or
    exact Double.quantity_ofPattern_nan (by omega) (by rw [Double.infinity_double]; omega) s

end OnlineFeatures
