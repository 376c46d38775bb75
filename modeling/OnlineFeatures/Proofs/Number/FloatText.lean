import Mathlib.Data.List.TakeWhile
import OnlineFeatures.Number.FloatText
import OnlineFeatures.Proofs.Number.Difference
import OnlineFeatures.Proofs.Number.Shortest

/-!
# Texts of floats read back

The text of a finite float in the plain notation is a numeral, and this numeral rounds to the float
again (`Double.ofChars?_text`). A decimal is written in one of two forms, and each is read as a
decimal of the same value (`DecimalDigits.ofChars?_chars`). The rest is that the shortest decimal of
a float rounds to it.
-/

namespace OnlineFeatures

/-! ## Numbers too large or too small -/

theorem FloatFormat.pattern_eq_zero {f : FloatFormat} (hf : 2 ≤ f.precision) {num den : Nat}
    (hden : 0 < den) (h : 2 * (num / den : ℚ) < f.magnitude 1) : f.pattern num den = 0 := by
  obtain ⟨lower, hlow, -, heq⟩ := pattern_eq_closer hf num hden
  have hpos : (0 : ℚ) ≤ num / den := by positivity
  obtain rfl : lower = 0 := by
    by_contra hne
    have hone : f.magnitude 1 ≤ f.magnitude lower :=
      f.magnitude_strictMono.monotone (Nat.pos_of_ne_zero hne)
    linarith
  rw [heq, closer, if_pos (.inl (by rwa [magnitude_zero, zero_add])), Nat.zero_min]

namespace DecimalDigits

/-- The place before the first digit. -/
def lead (d : DecimalDigits) : Int := d.exponent + digitCount d.digits

theorem value_bounds {d : DecimalDigits} (h : 0 < d.digits) :
    (10 : ℚ) ^ (d.lead - 1) ≤ d.value ∧ d.value < 10 ^ d.lead := by
  obtain ⟨k, hk, hlow, hhigh⟩ := exists_digitCount h
  have hscale : (0 : ℚ) < 10 ^ d.exponent := by positivity
  have hten : (10 : ℚ) ≠ 0 := by norm_num
  have hpowLow : (10 : ℚ) ^ (d.lead - 1) = (10 ^ k : Nat) * 10 ^ d.exponent := by
    rw [lead, hk, Nat.cast_pow, Nat.cast_ofNat, ← zpow_natCast, ← zpow_add₀ hten]
    congr 1
    omega
  have hpowHigh : (10 : ℚ) ^ d.lead = (10 ^ (k + 1) : Nat) * 10 ^ d.exponent := by
    rw [lead, hk, Nat.cast_pow, Nat.cast_ofNat, ← zpow_natCast, ← zpow_add₀ hten, add_comm]
  rw [hpowLow, hpowHigh]
  exact ⟨mul_le_mul_of_nonneg_right (by exact_mod_cast hlow) hscale.le,
    mul_lt_mul_of_pos_right (by exact_mod_cast hhigh) hscale⟩

theorem pattern_of_digits_eq_zero {d : DecimalDigits} (h : d.digits = 0) : d.pattern = 0 := by
  have hvalue : d.value = (⟨0, 0⟩ : DecimalDigits).value := by
    rw [value, value, h, Nat.cast_zero, zero_mul, zero_mul]
  rw [pattern_congr hvalue]
  rfl

theorem two_pow_le_ten_pow (n : Nat) : (2 : ℚ) ^ (3 * n) ≤ 10 ^ n := by
  rw [pow_mul]
  gcongr
  norm_num

theorem pattern_of_lead_lt {d : DecimalDigits} (h : d.lead < -Numeral.farthestDigit) :
    d.pattern = 0 := by
  rcases Nat.eq_zero_or_pos d.digits with hzero | hpos
  · exact pattern_of_digits_eq_zero hzero
  · rw [Numeral.farthestDigit] at h
    obtain ⟨n, hn⟩ : ∃ n : Nat, d.lead = -(n : ℤ) := ⟨(-d.lead).toNat, by omega⟩
    have hone : FloatFormat.double.magnitude 1 = 2 ^ (-1074 : ℤ) := by
      have h := FloatFormat.double.magnitude_add (k := 0) (r := 1) (by decide) (.inl rfl)
      rwa [zero_mul, zero_add, Nat.cast_one, one_mul,
        show FloatFormat.double.minExponent + ((0 : Nat) : ℤ) = -1074 by decide] at h
    rw [pattern_eq]
    refine FloatFormat.pattern_eq_zero (by decide) d.fraction_pos ?_
    rw [d.fraction_eq, hone]
    calc 2 * d.value < 2 * 10 ^ d.lead := mul_lt_mul_of_pos_left (value_bounds hpos).2 two_pos
      _ = 2 * (10 ^ n)⁻¹ := by rw [hn, zpow_neg, zpow_natCast]
      _ ≤ 2 * (2 ^ (3 * n))⁻¹ :=
        mul_le_mul_of_nonneg_left (inv_anti₀ (by positivity) (two_pow_le_ten_pow n)) zero_le_two
      _ = 2 ^ (1 - (3 * n : Nat) : ℤ) := by
        rw [zpow_sub₀ two_ne_zero, zpow_one, zpow_natCast, div_eq_mul_inv]
      _ ≤ 2 ^ (-1074 : ℤ) := zpow_le_zpow_right₀ one_le_two (by omega)

theorem pattern_of_lt_lead {d : DecimalDigits} (hd : d.digits ≠ 0)
    (h : Numeral.farthestDigit < d.lead) :
    d.pattern = FloatFormat.double.infinity := by
  rw [Numeral.farthestDigit] at h
  obtain ⟨n, hn⟩ : ∃ n : Nat, d.lead - 1 = n := ⟨(d.lead - 1).toNat, by omega⟩
  have hbound : (Double.overflowBound : ℚ) ≤ 2 ^ (54 + 970) := by
    rw [Double.overflowBound, pow_add, Nat.cast_mul, Nat.cast_pow _ 970, Nat.cast_ofNat]
    refine mul_le_mul_of_nonneg_right ?_ (by positivity)
    norm_num
  have hle : (Double.overflowBound : ℚ) ≤ d.value := by
    calc (Double.overflowBound : ℚ) ≤ 2 ^ (54 + 970) := hbound
      _ ≤ 2 ^ (3 * n) := pow_le_pow_right₀ one_le_two (by omega)
      _ ≤ 10 ^ n := two_pow_le_ten_pow n
      _ = 10 ^ (d.lead - 1) := by rw [hn, zpow_natCast]
      _ ≤ d.value := (value_bounds (Nat.pos_of_ne_zero hd)).1
  refine le_antisymm (FloatFormat.pattern_le_infinity _ _ _) ?_
  rw [pattern_eq, FloatFormat.infinity_le_pattern_iff (by decide) (by decide) _ d.fraction_pos,
    d.fraction_eq, Double.magnitude_overflowBound]
  exact mul_le_mul_of_nonneg_left hle zero_le_two

end DecimalDigits

/-- A numeral is rounded once, whatever bound cuts the computation short. -/
theorem Numeral.toDouble_eq (n : Numeral) :
    n.toDouble = Double.ofPattern n.negative n.magnitude.pattern := by
  rw [toDouble]
  congr 1
  split
  · rename_i hzero
    rcases hzero with hdigits | hlead
    · exact (DecimalDigits.pattern_of_digits_eq_zero hdigits).symm
    · exact (DecimalDigits.pattern_of_lead_lt hlead).symm
  · rename_i hzero
    rw [not_or] at hzero
    split
    · rename_i hlead
      exact (DecimalDigits.pattern_of_lt_lead hzero.1 hlead).symm
    · rfl

/-! ## Digits -/

theorem isDigit_of_mem_decimalChars {n : Nat} : ∀ c ∈ decimalChars n, c.isDigit = true :=
  fun _ hc => Nat.isDigit_of_mem_toDigits (by decide) le_rfl hc

theorem isDigit_of_mem_zeros {n : Nat} : ∀ c ∈ List.replicate n '0', c.isDigit = true := by
  intro c hc
  rw [List.eq_of_mem_replicate hc]
  rfl

theorem isDigit_of_mem_append {cs ds : List Char} (hcs : ∀ c ∈ cs, c.isDigit = true)
    (hds : ∀ c ∈ ds, c.isDigit = true) : ∀ c ∈ cs ++ ds, c.isDigit = true :=
  List.forall_mem_append.2 ⟨hcs, hds⟩

theorem length_decimalChars (n : Nat) : (decimalChars n).length = digitCount n := rfl

theorem exists_digitChar {c : Char} (h : c.isDigit = true) : ∃ n < 10, n.digitChar = c := by
  have hbounds : 48 ≤ c.toNat ∧ c.toNat ≤ 57 := by
    simpa [Char.isDigit, UInt32.le_iff_toNat_le] using h
  have hlt : c.toNat - 48 < 10 := by omega
  refine ⟨c.toNat - 48, hlt, Char.toNat_inj.1 ?_⟩
  rw [Nat.toNat_digitChar_of_lt_ten hlt]
  omega

namespace Numeral

theorem digitsValue_append_digit (ds : List Char) {n : Nat} (hn : n < 10) :
    digitsValue (ds ++ [n.digitChar]) = 10 * digitsValue ds + n := by
  rw [digitsValue, Nat.ofDigitChars_append, Nat.ofDigitChars_cons_digitChar_of_lt_ten hn]
  rfl

theorem digitsValue_lt {ds : List Char} (hds : ∀ c ∈ ds, c.isDigit = true) :
    digitsValue ds < 10 ^ ds.length := by
  induction ds using List.reverseRecOn with
  | nil => exact Nat.one_pos
  | append_singleton ds c ih =>
    obtain ⟨hinit, hlast⟩ := List.forall_mem_append.1 hds
    obtain ⟨n, hn, rfl⟩ := exists_digitChar (hlast c (List.mem_singleton.2 rfl))
    have hlt := ih hinit
    rw [digitsValue_append_digit ds hn, List.length_append, List.length_singleton, pow_succ]
    omega

theorem digitsValue_decimalChars (n : Nat) : digitsValue (decimalChars n) = n :=
  Nat.ofDigitChars_ten_toDigits

theorem digitsValue_zeros_append (n : Nat) (ds : List Char) :
    digitsValue (List.replicate n '0' ++ ds) = digitsValue ds := by
  rw [digitsValue, Nat.ofDigitChars_append, Nat.ofDigitChars_replicate_zero, mul_zero]
  rfl

theorem digitsValue_append_zeros (n : Nat) (ds : List Char) :
    digitsValue (ds ++ List.replicate n '0') = 10 ^ n * digitsValue ds := by
  rw [digitsValue, Nat.ofDigitChars_append, Nat.ofDigitChars_replicate_zero]
  rfl

/-! ## The characters of numerals -/

/-- Whether a character may stand in a numeral. -/
def IsPart (c : Char) : Prop := c.isDigit = true ∨ c ∈ ['-', '+', '.', 'e', 'E']

/-- What holds of the ten digits and of the five marks holds of every part of a numeral. -/
@[elab_as_elim]
theorem IsPart.elim {motive : Char → Prop} (digits : ∀ n < 10, motive n.digitChar)
    (marks : motive '-' ∧ motive '+' ∧ motive '.' ∧ motive 'e' ∧ motive 'E') {c : Char}
    (h : IsPart c) : motive c := by
  rcases h with hdigit | hmark
  · obtain ⟨n, hn, rfl⟩ := exists_digitChar hdigit
    exact digits n hn
  · obtain ⟨hminus, hplus, hpoint, hlower, hupper⟩ := marks
    simp only [List.mem_cons, List.not_mem_nil, or_false] at hmark
    obtain rfl | rfl | rfl | rfl | rfl := hmark <;> assumption

theorem takeSign_cases (cs : List Char) :
    ∃ sign, cs = sign ++ (takeSign cs).2 ∧ ∀ c ∈ sign, c = '-' ∨ c = '+' := by
  unfold takeSign
  split
  · exact ⟨['-'], rfl, by simp⟩
  · exact ⟨['+'], rfl, by simp⟩
  · exact ⟨[], rfl, by simp⟩

/-- A sign does not keep the rest from being made of parts. -/
theorem isPart_of_takeSign {cs : List Char} (h : ∀ c ∈ (takeSign cs).2, IsPart c) :
    ∀ c ∈ cs, IsPart c := by
  obtain ⟨sign, hcs, hsign⟩ := takeSign_cases cs
  rw [hcs]
  refine List.forall_mem_append.2 ⟨fun c hc => .inr ?_, h⟩
  obtain rfl | rfl := hsign c hc <;> simp

theorem isPart_of_tail? {cs : List Char} {e : Int} (h : tail? cs = some e) :
    ∀ c ∈ cs, IsPart c := by
  cases cs with
  | nil => simp
  | cons c rest =>
    rw [tail?] at h
    split at h
    · rename_i hc
      refine List.forall_mem_cons.2
        ⟨.inr (by obtain rfl | rfl := hc <;> simp), isPart_of_takeSign ?_⟩
      simp only [exponent?] at h
      split at h
      · rename_i hdigits
        exact fun d hd => .inl (List.all_eq_true.1 hdigits.2 d hd)
      · cases h
    · cases h

/-- Whatever is read as a numeral is made of its parts. -/
theorem isPart_of_ofChars? {cs : List Char} {n : Numeral} (h : ofChars? cs = some n) :
    ∀ c ∈ cs, IsPart c := by
  have hdigits (ds : List Char) : ∀ c ∈ ds.takeWhile Char.isDigit, IsPart c := fun c hc =>
    .inl (List.mem_takeWhile_imp hc)
  have hfraction (ds : List Char) (hrest : ∀ c ∈ (takeFraction ds).2, IsPart c) :
      ∀ c ∈ ds, IsPart c := by
    unfold takeFraction at hrest
    split at hrest
    · rename_i r
      rw [← List.takeWhile_append_dropWhile (p := Char.isDigit) (l := r)]
      exact List.forall_mem_cons.2 ⟨.inr (by simp), List.forall_mem_append.2 ⟨hdigits r, hrest⟩⟩
    · exact hrest
  simp only [ofChars?] at h
  split at h
  · cases h
  · obtain ⟨e, he, -⟩ := Option.map_eq_some_iff.1 h
    refine isPart_of_takeSign ?_
    rw [← List.takeWhile_append_dropWhile (p := Char.isDigit) (l := (takeSign cs).2)]
    exact List.forall_mem_append.2 ⟨hdigits _, hfraction _ (isPart_of_tail? he)⟩

/-! ## Reading the parts of a numeral -/

theorem exponent?_exponentChars (e : Int) : exponent? (exponentChars e) = some e := by
  rw [exponentChars]
  set ds := List.replicate (2 - (decimalChars e.natAbs).length) '0' ++ decimalChars e.natAbs
  have hds : ∀ c ∈ ds, c.isDigit = true :=
    isDigit_of_mem_append isDigit_of_mem_zeros isDigit_of_mem_decimalChars
  have hne : ds ≠ [] := List.append_ne_nil_of_right_ne_nil _ Nat.toDigits_ne_nil
  have hvalue : digitsValue ds = e.natAbs := by
    rw [digitsValue_zeros_append, digitsValue_decimalChars]
  have hall : ds.all Char.isDigit = true := List.all_eq_true.2 hds
  split
  · simp only [exponent?, takeSign, hall, hvalue, hne, ne_eq, not_false_eq_true, and_self, if_true]
    congr 1
    omega
  · simp only [exponent?, takeSign, hall, hvalue, hne, ne_eq, not_false_eq_true, and_self, if_true]
    congr 1
    simp only [Bool.false_eq_true, if_false]
    omega

section Reading

variable {whole fraction tail : List Char} {e : Int} (negative : Bool) (hne : whole ≠ [])
  (hwhole : ∀ c ∈ whole, c.isDigit = true) (htail : tail? tail = some e)

include hne hwhole

theorem takeSign_append (rest : List Char) :
    takeSign ((if negative then ['-'] else []) ++ (whole ++ rest)) = (negative, whole ++ rest) := by
  obtain ⟨c, cs, rfl⟩ := List.exists_cons_of_ne_nil hne
  cases negative
  · have hc := hwhole c List.mem_cons_self
    show takeSign (c :: (cs ++ rest)) = (false, c :: (cs ++ rest))
    unfold takeSign
    split
    · rename_i heq
      cases heq
      cases hc
    · rename_i heq
      cases heq
      cases hc
    · rfl
  · rfl

omit hne

theorem span_digits (rest : List Char) (hrest : rest.head?.all fun c => !c.isDigit) :
    (whole ++ rest).takeWhile Char.isDigit = whole ∧
      (whole ++ rest).dropWhile Char.isDigit = rest := by
  rw [List.takeWhile_append_of_pos hwhole, List.dropWhile_append_of_pos hwhole]
  cases rest with
  | nil => simp
  | cons c rest =>
    have hc : c.isDigit = false := by simpa using hrest
    simp [hc]

omit hwhole

include htail

/-- What may follow the digits of a numeral does not begin like one. -/
theorem tail_cases : tail = [] ∨ ∃ c rest, tail = c :: rest ∧ (c = 'e' ∨ c = 'E') := by
  cases tail with
  | nil => exact .inl rfl
  | cons c rest =>
    rw [tail?] at htail
    split at htail
    · rename_i hc
      exact .inr ⟨c, rest, rfl, hc⟩
    · cases htail

theorem tail_head :
    tail.head?.all (fun c => !c.isDigit) = true ∧ takeFraction tail = ([], tail) := by
  rcases tail_cases htail with rfl | ⟨c, rest, rfl, rfl | rfl⟩
  · exact ⟨rfl, rfl⟩
  · exact ⟨rfl, rfl⟩
  · exact ⟨rfl, rfl⟩

include hne hwhole

/-- A numeral with a point. -/
theorem ofChars?_pointed (hfraction : ∀ c ∈ fraction, c.isDigit = true) :
    ofChars? ((if negative then ['-'] else []) ++ (whole ++ '.' :: (fraction ++ tail))) =
      some ⟨negative, digitsValue (whole ++ fraction), e - fraction.length⟩ := by
  obtain ⟨htake, hdrop⟩ := span_digits hwhole ('.' :: (fraction ++ tail)) rfl
  obtain ⟨htake', hdrop'⟩ := span_digits hfraction tail (tail_head htail).1
  simp only [ofChars?, takeSign_append negative hne hwhole, htake, hdrop, takeFraction,
    htake', hdrop', hne, false_and, if_false, htail, Option.map_some]

/-- A numeral without a point. -/
theorem ofChars?_whole :
    ofChars? ((if negative then ['-'] else []) ++ (whole ++ tail)) =
      some ⟨negative, digitsValue whole, e⟩ := by
  obtain ⟨hhead, hfraction⟩ := tail_head htail
  obtain ⟨htake, hdrop⟩ := span_digits hwhole tail hhead
  simp [ofChars?, takeSign_append negative hne hwhole, htake, hdrop, hfraction, hne, htail]

end Reading

end Numeral

/-! ## Writing decimals and reading them -/

namespace DecimalDigits

open Numeral

variable (negative : Bool) (d : DecimalDigits)

theorem decimalChars_ne_nil (n : Nat) : decimalChars n ≠ [] := Nat.toDigits_ne_nil

theorem ofChars?_positional : ∃ m : DecimalDigits, m.value = d.value ∧
    ofChars? ((if negative then ['-'] else []) ++ d.positional true) = some ⟨negative, m⟩ := by
  have htail : tail? [] = some 0 := rfl
  obtain ⟨digits, exponent⟩ := d
  -- zeros are added behind the digits, or before them until one stands before the point
  cases exponent with
  | ofNat k =>
    have hne : decimalChars digits ++ List.replicate k '0' ≠ [] :=
      List.append_ne_nil_of_left_ne_nil (decimalChars_ne_nil digits) _
    have hwhole : ∀ c ∈ decimalChars digits ++ List.replicate k '0', c.isDigit = true :=
      isDigit_of_mem_append isDigit_of_mem_decimalChars isDigit_of_mem_zeros
    have hfraction : ∀ c ∈ ['0'], c.isDigit = true := by simp
    refine ⟨_, ?_, ofChars?_pointed negative hne hwhole htail hfraction⟩
    rw [List.append_assoc, ← List.replicate_succ', digitsValue_append_zeros,
      digitsValue_decimalChars]
    simp only [value, List.length_singleton, Nat.cast_one, zero_sub,
      Int.ofNat_eq_natCast, zpow_natCast]
    push_cast
    rw [zpow_neg, zpow_one, pow_succ]
    ring
  | negSucc k =>
    set padded :=
      List.replicate (k + 1 + 1 - (decimalChars digits).length) '0' ++
        decimalChars digits with hpadded
    have hlength : k + 1 + 1 ≤ padded.length := by
      rw [hpadded, List.length_append, List.length_replicate]
      omega
    have hdigits : ∀ c ∈ padded, c.isDigit = true :=
      isDigit_of_mem_append isDigit_of_mem_zeros isDigit_of_mem_decimalChars
    have hwhole : padded.take (padded.length - (k + 1)) ≠ [] := by
      rw [ne_eq, List.take_eq_nil_iff, not_or, ← List.length_eq_zero_iff]
      omega
    have hread :=
      ofChars?_pointed negative hwhole (fun c hc => hdigits c (List.mem_of_mem_take hc)) htail
        fun c hc => hdigits c (List.mem_of_mem_drop (i := padded.length - (k + 1)) hc)
    rw [List.append_nil] at hread
    refine ⟨_, ?_, hread⟩
    rw [List.take_append_drop, List.length_drop, hpadded, digitsValue_zeros_append,
      digitsValue_decimalChars, ← hpadded, Nat.sub_sub_self (by omega), zero_sub]
    rfl

theorem ofChars?_scientific : ∃ m : DecimalDigits, m.value = d.value ∧
    ofChars? ((if negative then ['-'] else []) ++ d.scientific) = some ⟨negative, m⟩ := by
  obtain ⟨first, more, hchars⟩ := List.exists_cons_of_ne_nil (decimalChars_ne_nil d.digits)
  have hdigits : ∀ c ∈ first :: more, c.isDigit = true := hchars ▸ isDigit_of_mem_decimalChars
  obtain ⟨hfirst, hmore⟩ := List.forall_mem_cons.1 hdigits
  have hvalue : digitsValue (first :: more) = d.digits := by rw [← hchars, digitsValue_decimalChars]
  set e := d.exponent + more.length with he
  have htail : tail? ('e' :: exponentChars e) = some e := by
    rw [tail?, if_pos (.inl rfl), exponent?_exponentChars]
  have hne : [first] ≠ [] := List.cons_ne_nil first []
  have hwhole : ∀ c ∈ [first], c.isDigit = true := by simpa using hfirst
  rw [scientific, hchars]
  -- a single digit is written without a point
  cases more with
  | nil =>
    have hread := ofChars?_whole negative hne hwhole htail
    refine ⟨_, ?_, hread⟩
    rw [hvalue, he]
    simp [value]
  | cons second more =>
    have hread := ofChars?_pointed negative hne hwhole htail hmore
    refine ⟨_, ?_, hread⟩
    rw [List.singleton_append, hvalue, he, add_sub_cancel_right]

theorem chars_cases : d.chars true = d.positional true ∨ d.chars true = d.scientific := by
  rw [chars, charsBelow]
  exact ite_eq_or_eq _ _ _

/-- A written decimal is read as a decimal of the same value. -/
theorem ofChars?_chars : ∃ m : DecimalDigits, m.value = d.value ∧
    ofChars? ((if negative then ['-'] else []) ++ d.chars true) = some ⟨negative, m⟩ := by
  rcases d.chars_cases with hchars | hchars
  · rw [hchars]
    exact ofChars?_positional negative d
  · rw [hchars]
    exact ofChars?_scientific negative d

end DecimalDigits

/-! ## Texts of floats -/

namespace Double

variable {x : Double}

/-- A finite float by its sign and its pattern. -/
theorem eq_ofPattern (x : Double) :
    x = ofPattern (2 ^ 63 ≤ x.bits.toNat) (x.bits.toNat % 2 ^ 63) := by
  have hlt := x.bits.toNat_lt
  have hbits : FloatFormat.double.withSign (2 ^ 63 ≤ x.bits.toNat) (x.bits.toNat % 2 ^ 63) =
      x.bits.toNat := by
    rw [FloatFormat.withSign, signWeight_double]
    split
    · rename_i hsign
      have := of_decide_eq_true hsign
      omega
    · rename_i hsign
      have := of_decide_eq_false (Bool.eq_false_iff.2 hsign)
      omega
  rw [ofPattern, hbits, UInt64.ofNat_toNat]

/-- A finite float is viewed with the number that its pattern stands for. -/
theorem exists_view (h : x.isFinite = true) : ∃ m e, x.view = .finite (2 ^ 63 ≤ x.bits.toNat) m e ∧
    m * (2 : ℚ) ^ e = FloatFormat.double.magnitude (x.bits.toNat % 2 ^ 63) := by
  have hbinade : FloatFormat.double.binade = 2 ^ 52 := by decide
  rw [isFinite_iff, infinity_double] at h
  rw [view_eq, FloatFormat.magnitude, hbinade]
  split_ifs with hzero hlast hfraction
  · exact ⟨_, _, rfl, by rw [Nat.mod_eq_of_lt (Nat.lt_of_div_eq_zero (by decide) hzero)]⟩
  · omega
  · omega
  · exact ⟨_, _, rfl, rfl⟩

/-- What is written of a finite float: a sign, and a decimal that rounds to its pattern. -/
theorem exists_chars (h : x.isFinite = true) : ∃ d : DecimalDigits,
    x.chars .plain = (if decide (2 ^ 63 ≤ x.bits.toNat) then ['-'] else []) ++ d.chars true ∧
      d.pattern = x.bits.toNat % 2 ^ 63 := by
  have hfinite := isFinite_iff x |>.1 h
  obtain ⟨m, e, hview, hvalue⟩ := exists_view h
  set p := x.bits.toNat % 2 ^ 63
  have hchars : x.chars .plain = (if decide (2 ^ 63 ≤ x.bits.toNat) then ['-'] else []) ++
      (if m = 0 then ⟨0, 0⟩ else shortestDecimal p m e).chars true := by
    rw [chars, hview, signWeight_double]
    rfl
  rcases Nat.eq_zero_or_pos m with rfl | hm
  · refine ⟨⟨0, 0⟩, hchars, ?_⟩
    rw [Nat.cast_zero, zero_mul, ← FloatFormat.double.magnitude_zero] at hvalue
    exact FloatFormat.double.magnitude_strictMono.injective hvalue
  · rw [if_neg hm.ne'] at hchars
    exact ⟨_, hchars, pattern_shortestDecimal hm hfinite hvalue⟩

/-- The text of a finite float is a numeral that rounds to it. -/
theorem ofChars?_text (h : x.isFinite = true) :
    (Numeral.ofChars? x.text.toList).map (·.toDouble) = some x := by
  obtain ⟨d, hchars, hpattern⟩ := exists_chars h
  obtain ⟨m, hvalue, hread⟩ := d.ofChars?_chars (2 ^ 63 ≤ x.bits.toNat)
  rw [text, textIn, String.toList_ofList, hchars, hread, Option.map_some, Numeral.toDouble_eq]
  show some (ofPattern _ m.pattern) = some x
  rw [DecimalDigits.pattern_congr hvalue, hpattern, ← eq_ofPattern]

end Double

end OnlineFeatures
