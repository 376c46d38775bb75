import OnlineFeatures.Cli.Entities
import OnlineFeatures.Proofs.Cli.Numerals

/-!
# Which texts are taken for numbers

Many texts are read as one number, but a text is taken for a number only if the number prints as
that very text, and so a value always prints as the text it was read from
(`Entities.scalar_takenFor`): different texts make different values. What passes this comparison is
what numbers are written with. Which texts are integers is a matter of their characters
(`Entities.IntegerText`), and a text is a float if it is the text of a finite one
(`Entities.FloatText`), since the text of a number is always read as the number
(`Lenient.integer?_toString`, `Lenient.float?_text`).
-/

namespace OnlineFeatures

/-! ## Digits without leading zeros -/

/-- A positive number is written without a leading zero. -/
theorem exists_decimalChars {n : Nat} (hn : 0 < n) :
    ∃ first more, decimalChars n = first :: more ∧ first ≠ '0' := by
  induction n using Nat.strongRecOn with
  | ind n ih =>
    rw [decimalChars]
    rcases Nat.lt_or_ge n 10 with hlt | hge
    · refine ⟨_, _, Nat.toDigits_of_lt_base hlt, ?_⟩
      rw [ne_eq, Nat.digitChar_eq_zero]
      exact hn.ne'
    · obtain ⟨first, more, hchars, hfirst⟩ := ih (n / 10) (by omega) (by omega)
      rw [decimalChars] at hchars
      refine ⟨first, more ++ [(n % 10).digitChar], ?_, hfirst⟩
      rw [Nat.toDigits_of_base_le (by decide) hge, hchars, List.cons_append]

/-- Digits that do not begin with zero are those that their number is written with. -/
theorem decimalChars_digitsValue {first : Char} {more : List Char} (hfirst : first ≠ '0')
    (hdigits : ∀ c ∈ first :: more, c.isDigit = true) :
    0 < Numeral.digitsValue (first :: more) ∧
      decimalChars (Numeral.digitsValue (first :: more)) = first :: more := by
  induction more using List.reverseRecOn with
  | nil =>
    obtain ⟨n, hn, rfl⟩ := exists_digitChar (hdigits first List.mem_cons_self)
    have hvalue : Numeral.digitsValue [n.digitChar] = n :=
      (Numeral.digitsValue_append_digit [] hn).trans (Nat.zero_add n)
    rw [ne_eq, Nat.digitChar_eq_zero] at hfirst
    rw [hvalue]
    exact ⟨Nat.pos_of_ne_zero hfirst, Nat.toDigits_of_lt_base hn⟩
  | append_singleton more c ih =>
    rw [← List.cons_append] at hdigits ⊢
    obtain ⟨hinit, hlast⟩ := List.forall_mem_append.1 hdigits
    obtain ⟨n, hn, rfl⟩ := exists_digitChar (hlast c (List.mem_singleton.2 rfl))
    obtain ⟨hpos, hchars⟩ := ih hinit
    -- the last digit of a number is its remainder, and the others those of the quotient
    have hdiv : (10 * Numeral.digitsValue (first :: more) + n) / 10 =
        Numeral.digitsValue (first :: more) := by omega
    have hmod : (10 * Numeral.digitsValue (first :: more) + n) % 10 = n := by omega
    rw [Numeral.digitsValue_append_digit _ hn]
    refine ⟨by omega, ?_⟩
    rw [decimalChars, Nat.toDigits_of_base_le (by decide) (by omega), hdiv, hmod]
    exact congrArg (· ++ [n.digitChar]) hchars

/-! ## Texts of integers -/

namespace Entities

/-- The texts of integers: zero, or digits of which the first is not zero, after a minus sign where
there is one, and no more of them than are ever read. -/
inductive IntegerText : String → Prop where
  | zero : IntegerText "0"
  | digits (negative : Bool) {first : Char} {more : List Char} (hfirst : first ≠ '0')
      (hdigits : ∀ c ∈ first :: more, c.isDigit = true)
      (hlimit : (first :: more).length ≤ numeralLimit) :
      IntegerText (String.ofList ((if negative then ['-'] else []) ++ first :: more))

/-- The texts of finite floats. -/
def FloatText (s : String) : Prop := ∃ x : Double, x.isFinite = true ∧ x.text = s

variable {s : String}

/-- What is read always prints, and what is printed is always read, so that only the comparison is
left. -/
theorem scalarInt?_eq_some_iff {i : Int} :
    scalarInt? s = some i ↔ toString i = s ∧ numeralTooLong i = false := by
  rw [scalarInt?, Option.filter_eq_some_iff, decide_eq_true_eq]
  constructor
  · rintro ⟨hread, hprints⟩
    have hshort := Lenient.numeralTooLong_of_integer? hread
    rw [shownInt, hshort] at hprints
    exact ⟨Option.some.inj hprints, hshort⟩
  · rintro ⟨rfl, hshort⟩
    refine ⟨Lenient.integer?_toString hshort, ?_⟩
    rw [shownInt, hshort]
    rfl

theorem integerText_iff : IntegerText s ↔ ∃ i, scalarInt? s = some i := by
  -- being read means being printed back, so the grammar is compared with texts of integers
  simp only [scalarInt?_eq_some_iff, numeralTooLong_eq_false_iff]
  constructor
  · rintro (_ | @⟨negative, first, more, hfirst, hdigits, hlimit⟩)
    · exact ⟨0, rfl, by decide⟩
    · obtain ⟨hpos, hchars⟩ := decimalChars_digitsValue hfirst hdigits
      set n := Numeral.digitsValue (first :: more)
      rw [← hchars, length_decimalChars] at hlimit
      refine ⟨if negative then -n else n, ?_, ?_⟩
      · rw [← String.toList_inj, toList_toString_int, String.toList_ofList, ← hchars]
        cases negative <;> simp [hpos]
      · cases negative <;> simpa using hlimit
  · rintro ⟨i, rfl, hlimit⟩
    rcases Nat.eq_zero_or_pos i.natAbs with hzero | hpos
    · obtain rfl := Int.natAbs_eq_zero.1 hzero
      exact .zero
    · obtain ⟨first, more, hchars, hfirst⟩ := exists_decimalChars hpos
      have hdigits : ∀ c ∈ first :: more, c.isDigit = true := hchars ▸ isDigit_of_mem_decimalChars
      rw [← length_decimalChars, hchars] at hlimit
      have hinteger := IntegerText.digits (i < 0) hfirst hdigits hlimit
      rw [← hchars] at hinteger
      simpa only [decide_eq_true_eq, ← toList_toString_int, String.ofList_toList] using hinteger

theorem scalarFloat?_eq_some_iff {x : Double} :
    scalarFloat? s = some x ↔ x.isFinite = true ∧ x.text = s := by
  rw [scalarFloat?, Option.filter_eq_some_iff, Bool.and_eq_true, decide_eq_true_eq]
  constructor
  · exact And.right
  · rintro ⟨hfinite, rfl⟩
    exact ⟨Lenient.float?_text hfinite, hfinite, rfl⟩

theorem floatText_iff : FloatText s ↔ ∃ x, scalarFloat? s = some x := by
  simp only [scalarFloat?_eq_some_iff, FloatText]

/-! ## What a text is taken for -/

/-- Whether a native value is what a text is taken for: it prints as the text, and its type is told
by the text. -/
structure TakenFor (v : Native) (s : String) : Prop where
  prints : v.plain = .ok s
  integer : (∃ i, v = .int i) ↔ IntegerText s
  float : (∃ x, v = .float x) ↔ ¬ IntegerText s ∧ FloatText s
  text : v = .text s ↔ ¬ IntegerText s ∧ ¬ FloatText s

theorem scalar_cases (s : String) :
    (∃ i, scalar s = .int i ∧ scalarInt? s = some i) ∨
      scalarInt? s = none ∧
        ((∃ x, scalar s = .float x ∧ scalarFloat? s = some x) ∨
          scalar s = .text s ∧ scalarFloat? s = none) := by
  rw [scalar]
  cases scalarInt? s with
  | some i => exact .inl ⟨i, rfl, rfl⟩
  | none =>
    cases scalarFloat? s with
    | some x => exact .inr ⟨rfl, .inl ⟨x, rfl, rfl⟩⟩
    | none => exact .inr ⟨rfl, .inr ⟨rfl, rfl⟩⟩

/-- A text is taken for an integer or a float if it is the text of one, and stays as it is
otherwise. -/
theorem scalar_takenFor (s : String) : TakenFor (scalar s) s := by
  have hint := integerText_iff (s := s)
  have hfloat := floatText_iff (s := s)
  -- integers come first, then floats, and what is neither stays a text
  rcases scalar_cases s with ⟨i, hscalar, hi⟩ | ⟨hnone, ⟨x, hscalar, hx⟩ | ⟨hscalar, hx⟩⟩
  · obtain ⟨hprints, hlimit⟩ := scalarInt?_eq_some_iff.1 hi
    have hinteger := hint.2 ⟨i, hi⟩
    rw [hscalar]
    refine ⟨?_, ⟨fun _ => hinteger, fun _ => ⟨i, rfl⟩⟩, ⟨nofun, fun h => absurd hinteger h.1⟩,
      ⟨nofun, fun h => absurd hinteger h.1⟩⟩
    show shownInt i = _
    rw [shownInt, hlimit, ← hprints]
    rfl
  · have hinteger : ¬ IntegerText s := by simp [hint, hnone]
    have hprints := (scalarFloat?_eq_some_iff.1 hx).2
    rw [hscalar]
    exact ⟨congrArg Except.ok hprints, ⟨nofun, fun h => absurd h hinteger⟩,
      ⟨fun _ => ⟨hinteger, hfloat.2 ⟨x, hx⟩⟩, fun _ => ⟨x, rfl⟩⟩,
        ⟨nofun, fun h => absurd (hfloat.2 ⟨x, hx⟩) h.2⟩⟩
  · have hinteger : ¬ IntegerText s := by simp [hint, hnone]
    have hnofloat : ¬ FloatText s := by simp [hfloat, hx]
    rw [hscalar]
    exact ⟨rfl, ⟨nofun, fun h => absurd h hinteger⟩, ⟨nofun, fun h => absurd h.2 hnofloat⟩,
      ⟨fun _ => ⟨hinteger, hnofloat⟩, fun _ => rfl⟩⟩

/-- Different texts are taken for different values. -/
theorem TakenFor.unique {v : Native} {t : String} (h : TakenFor v s) (h' : TakenFor v t) : s = t :=
  Except.ok.inj (h.prints.symm.trans h'.prints)

theorem scalar_injective : Function.Injective scalar := by
  intro s t h
  have ht := scalar_takenFor t
  rw [← h] at ht
  exact (scalar_takenFor s).unique ht

end Entities

end OnlineFeatures
