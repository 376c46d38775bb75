import OnlineFeatures.Cli.Numerals
import OnlineFeatures.Proofs.Number.FloatText

/-!
# Plain numerals read leniently

Leniency changes nothing in a numeral that is written plainly (`Lenient.plainChars?_eq`), since no
part of it is a blank, an underscore or a digit of another script. Hence the texts of integers and
of finite floats are read as what they are the texts of (`Lenient.integer?_toString`,
`Lenient.float?_text`). Conversely, no integer is read that has too many digits to be shown
(`Lenient.numeralTooLong_of_integer?`).
-/

namespace OnlineFeatures

theorem numeralTooLong_eq_false_iff {i : Int} :
    numeralTooLong i = false ↔ digitCount i.natAbs ≤ numeralLimit := by
  rw [numeralTooLong, decide_eq_false_iff_not, not_le, digitCount_le_iff (by decide), Nat.pow_eq]

theorem toList_toString_int (i : Int) :
    (toString i).toList = (if i < 0 then ['-'] else []) ++ decimalChars i.natAbs := by
  rw [Int.toString_eq_repr, Int.repr_eq_if]
  split
  · rename_i hpos
    rw [Nat.toList_repr, if_neg (not_lt.2 hpos), show i.toNat = i.natAbs by omega]
    rfl
  · rename_i hneg
    rw [String.toList_append, Nat.toList_repr, if_pos (not_le.1 hneg),
      show (-i).toNat = i.natAbs by omega]
    rfl

theorem trimChars_of_forall {p : Char → Bool} {cs : List Char} (h : ∀ c ∈ cs, p c = false) :
    trimChars p cs = cs := by
  have hdrop (ds : List Char) (hds : ∀ c ∈ ds, p c = false) : ds.dropWhile p = ds := by
    cases ds with
    | nil => rfl
    | cons c ds => exact List.dropWhile_cons_of_neg (by simp [hds c List.mem_cons_self])
  rw [trimChars, hdrop cs h, hdrop _ fun c hc => h c (List.mem_reverse.1 hc), List.reverse_reverse]

namespace Lenient

open Numeral

/-! ## Plain characters -/

/-- A part of a plain numeral is neither a blank nor an underscore, and stands for itself. -/
theorem plain_of_isPart {c : Char} (h : IsPart c) :
    isWhiteSpace c = false ∧ plainDigit c = c ∧ c ≠ '_' :=
  h.elim (by decide) (by decide)

theorem dropUnderscores?_of_forall {cs : List Char} (h : ∀ c ∈ cs, c ≠ '_') (afterDigit : Bool) :
    dropUnderscores? afterDigit cs = some cs := by
  induction cs generalizing afterDigit with
  | nil => rfl
  | cons c cs ih =>
    obtain ⟨hc, hcs⟩ := List.forall_mem_cons.1 h
    unfold dropUnderscores?
    split
    · rename_i heq
      cases heq
    · rename_i heq
      exact absurd (List.cons.inj heq).1 hc
    · rename_i heq
      exact absurd (List.cons.inj heq).1 hc
    · rename_i heq
      obtain ⟨rfl, rfl⟩ := List.cons.inj heq
      rw [ih hcs, Option.map_some]

/-- A plain numeral is left as it is. -/
theorem plainChars?_eq {s : String} (h : ∀ c ∈ s.toList, IsPart c) :
    plainChars? s = some s.toList := by
  have hdigits : s.toList.map plainDigit = s.toList :=
    (List.map_congr_left fun c hc => (plain_of_isPart (h c hc)).2.1).trans (List.map_id' _)
  rw [plainChars?, trimChars_of_forall fun c hc => (plain_of_isPart (h c hc)).1, hdigits]
  exact dropUnderscores?_of_forall (fun c hc => (plain_of_isPart (h c hc)).2.2) false

/-! ## Integers -/

theorem plainInteger?_digits (negative : Bool) {ds : List Char} (hne : ds ≠ [])
    (hdigits : ∀ c ∈ ds, c.isDigit = true) (hlimit : ds.length ≤ numeralLimit) :
    plainInteger? ((if negative then ['-'] else []) ++ ds) =
      some (if negative then -(digitsValue ds : Int) else (digitsValue ds : Int)) := by
  have hsign := takeSign_append negative hne hdigits []
  rw [List.append_nil] at hsign
  rw [plainInteger?, hsign]
  exact if_pos ⟨hne, List.all_eq_true.2 hdigits, hlimit⟩

/-- An integer that is not too long is read from its text. -/
theorem integer?_toString {i : Int} (h : numeralTooLong i = false) :
    integer? (toString i) = some i := by
  have hdigits : ∀ c ∈ decimalChars i.natAbs, c.isDigit = true := isDigit_of_mem_decimalChars
  have hparts : ∀ c ∈ (toString i).toList, IsPart c := by
    rw [toList_toString_int]
    refine List.forall_mem_append.2 ⟨?_, fun c hc => .inl (hdigits c hc)⟩
    split <;> simp [IsPart]
  have hlimit : (decimalChars i.natAbs).length ≤ numeralLimit := by
    rw [length_decimalChars]
    exact numeralTooLong_eq_false_iff.1 h
  have hread := plainInteger?_digits (i < 0) (DecimalDigits.decimalChars_ne_nil _) hdigits hlimit
  simp only [decide_eq_true_eq, digitsValue_decimalChars] at hread
  rw [integer?, plainChars?_eq hparts, Option.bind_some, toList_toString_int]
  refine hread.trans (congrArg some ?_)
  split <;> omega

/-- An integer that is read has few enough digits to be shown. -/
theorem numeralTooLong_of_integer? {s : String} {i : Int} (h : integer? s = some i) :
    numeralTooLong i = false := by
  obtain ⟨cs, -, hread⟩ := Option.bind_eq_some_iff.1 h
  simp only [plainInteger?] at hread
  split at hread
  · rename_i hds
    obtain ⟨-, hdigits, hlimit⟩ := hds
    have hlt := digitsValue_lt (List.all_eq_true.1 hdigits)
    have habs : i.natAbs = digitsValue (takeSign cs).2 := by
      obtain rfl := Option.some.inj hread
      split <;> simp
    rw [numeralTooLong_eq_false_iff, digitCount_le_iff (by decide), habs]
    exact hlt.trans_le (Nat.pow_le_pow_right (by decide) hlimit)
  · cases hread

/-! ## Floats -/

/-- A plain numeral has no letter of the names that floats may have. -/
theorem plainFloat?_eq {cs : List Char} (h : ∀ c ∈ cs, IsPart c) :
    plainFloat? cs = (ofChars? cs).map (·.toDouble) := by
  have hlower (c : Char) (hc : IsPart c) : c.toLower ≠ 'n' := hc.elim (by decide) (by decide)
  have hname {name : List Char} (hn : 'n' ∈ name) : (takeSign cs).2.map Char.toLower ≠ name := by
    rintro rfl
    obtain ⟨c, hc, heq⟩ := List.mem_map.1 hn
    obtain ⟨sign, hcs, -⟩ := takeSign_cases cs
    exact hlower c (h c (hcs ▸ List.mem_append_right sign hc)) heq
  simp only [plainFloat?]
  rw [if_neg (not_or.2 ⟨hname (by decide), hname (by decide)⟩), if_neg (hname (by decide))]

/-- A finite float is read from its text. -/
theorem float?_text {x : Double} (h : x.isFinite = true) : float? x.text = some x := by
  have hread := Double.ofChars?_text h
  obtain ⟨n, hn, -⟩ := Option.map_eq_some_iff.1 hread
  have hparts : ∀ c ∈ x.text.toList, IsPart c := isPart_of_ofChars? hn
  rw [float?, plainChars?_eq hparts, Option.bind_some, plainFloat?_eq hparts, hread]

end Lenient

end OnlineFeatures
