import OnlineFeatures.Message.TimestampText
import OnlineFeatures.Proofs.Calendar
import OnlineFeatures.Proofs.Conversion.Valid
import OnlineFeatures.Proofs.Number.FloatText

/-!
# Timestamps of the calendar and their texts

A timestamp has a text exactly if it lies in the years 1 to 9999 (`Timestamp.exists_rfc3339_iff`).
The text of a time in UTC spells its fields with fixed numbers of digits, and no fraction,
milliseconds or microseconds (`Rfc3339`).
-/

namespace OnlineFeatures

/-! ## Digits of a width -/

/-- Whether digits, as many as a width tells, spell a number. -/
structure Spells (width n : Nat) (cs : List Char) : Prop where
  length : cs.length = width
  digits : ∀ c ∈ cs, c.isDigit = true
  value : Numeral.digitsValue cs = n

theorem spells_paddedDecimal {width n : Nat} (hwidth : 0 < width) (h : n < 10 ^ width) :
    Spells width n (paddedDecimal width n).toList := by
  have hcount : (decimalChars n).length ≤ width := by
    rw [length_decimalChars]
    exact (digitCount_le_iff hwidth).2 h
  rw [paddedDecimal, String.toList_ofList]
  refine ⟨?_, isDigit_of_mem_append isDigit_of_mem_zeros isDigit_of_mem_decimalChars, ?_⟩
  · rw [List.length_append, List.length_replicate]
    exact Nat.sub_add_cancel hcount
  · rw [Numeral.digitsValue_zeros_append]
    exact Numeral.digitsValue_decimalChars n

/-! ## Texts of times -/

/-- The fractions of a second that a number of microseconds is written as: none, three digits where
they are whole milliseconds, and six digits otherwise. -/
inductive FractionOf : Nat → List Char → Prop where
  | none : FractionOf 0 []
  | milliseconds {n : Nat} {cs : List Char} : 0 < n → Spells 3 n cs →
    FractionOf (1000 * n) ('.' :: cs)
  | microseconds {n : Nat} {cs : List Char} : n % 1000 ≠ 0 → Spells 6 n cs →
    FractionOf n ('.' :: cs)

/-- The RFC 3339 texts of a time in UTC. -/
inductive Rfc3339 (u : DateTime) : List Char → Prop where
  | utc {year month day hour minute second fraction : List Char} :
      Spells 4 u.date.year year → Spells 2 u.date.month month → Spells 2 u.date.day day →
      Spells 2 u.hour hour → Spells 2 u.minute minute → Spells 2 u.second second →
      FractionOf u.microsecond fraction →
      Rfc3339 u
        (year ++ '-' :: month ++ '-' :: day ++ 'T' :: hour ++ ':' :: minute ++ ':' ::
        second ++ fraction ++
        ['Z'])

theorem fractionOf_fractionText {microsecond : Nat} (h : microsecond < 1000000) :
    FractionOf microsecond (Timestamp.fractionText (microsecond * 1000)).toList := by
  rw [Timestamp.fractionText]
  split
  · rename_i hzero
    obtain rfl : microsecond = 0 := by omega
    exact .none
  · rename_i hzero
    split
    · rename_i hmilliseconds
      obtain ⟨n, rfl⟩ : ∃ n, microsecond = 1000 * n := ⟨microsecond / 1000, by omega⟩
      rw [show 1000 * n * 1000 / 1000000 = n by omega, String.toList_append]
      exact .milliseconds (by omega) (spells_paddedDecimal (by decide) (by omega))
    · rename_i hmilliseconds
      rw [if_pos (by omega), Nat.mul_div_cancel _ (by decide), String.toList_append]
      exact .microseconds (by omega) (spells_paddedDecimal (by decide) (by omega))

/-- No month is longer than 31 days. -/
theorem Date.Valid.day_le {d : Date} (h : d.Valid) : d.day ≤ 31 := by
  obtain ⟨length, hlength, hday⟩ := h.exists_length
  have hmem : ∀ length ∈ monthLengths d.year, length ≤ 31 := by
    rw [monthLengths]
    cases isLeapYear d.year <;> decide
  have := hmem length (List.mem_of_getElem? hlength)
  omega

theorem rfc3339_isoText {u : DateTime} (h : u.Valid) :
    Rfc3339 u (u.isoText ++ Timestamp.fractionText (u.microsecond * 1000) ++ "Z").toList := by
  have hfour {n : Nat} (hn : n < 10000) : Spells 4 n (paddedDecimal 4 n).toList :=
    spells_paddedDecimal (by decide) hn
  have htwo {n : Nat} (hn : n < 100) : Spells 2 n (paddedDecimal 2 n).toList :=
    spells_paddedDecimal (by decide) hn
  have hyear := h.date.year
  have hmonth := h.date.month
  have hday := h.date.day_le
  have hhour := h.hour
  have hminute := h.minute
  have hsecond := h.second
  have htext := Rfc3339.utc (hfour (n := u.date.year) (by omega))
    (htwo (n := u.date.month) (by omega)) (htwo (n := u.date.day) (by omega))
    (htwo (n := u.hour) (by omega)) (htwo (n := u.minute) (by omega))
    (htwo (n := u.second) (by omega)) (fractionOf_fractionText h.microsecond)
  simpa [DateTime.isoText, Date.isoText, DateTime.clockText] using htext

/-! ## Timestamps of the calendar -/

namespace Timestamp

/-- Whether a timestamp lies in the years 1 to 9999. -/
structure Dated (t : Timestamp) : Prop where
  seconds : -62135596800 ≤ t.seconds.toInt ∧ t.seconds.toInt ≤ 253402300799
  nanos : 0 ≤ t.nanos.toInt ∧ t.nanos.toInt ≤ 999999999

theorem firstSecond_eq : firstSecond = -62135596800 := by decide

theorem lastSecond_eq : lastSecond = 253402300799 := by decide

theorem checkMoment_eq_ok_iff {seconds nanos : Int} :
    checkMoment seconds nanos = .ok () ↔
      (-62135596800 ≤ seconds ∧ seconds ≤ 253402300799) ∧ 0 ≤ nanos ∧ nanos ≤ 999999999 := by
  rw [checkMoment, firstSecond_eq, lastSecond_eq, nanosPerSecond]
  split
  · exact ⟨nofun, by omega⟩
  · split
    · exact ⟨nofun, by omega⟩
    · exact ⟨fun _ => by omega, fun _ => rfl⟩

theorem dated_iff {t : Timestamp} :
    t.Dated ↔ checkMoment t.seconds.toInt t.nanos.toInt = .ok () := by
  rw [checkMoment_eq_ok_iff]
  exact ⟨fun h => ⟨h.seconds, h.nanos⟩, fun h => ⟨h.1, h.2⟩⟩

theorem rfc3339_of_dated {t : Timestamp} (h : t.Dated) :
    t.rfc3339 = .ok ((DateTime.ofSecond (t.seconds.toInt + epochSecond).toNat 0).isoText ++
      fractionText t.nanos.toInt.toNat ++ "Z") := by
  rw [rfc3339, dated_iff.1 h]
  rfl

/-- A timestamp has a text exactly if it lies in the calendar. -/
theorem exists_rfc3339_iff {t : Timestamp} : (∃ text, t.rfc3339 = .ok text) ↔ t.Dated := by
  constructor
  · rintro ⟨text, htext⟩
    rw [rfc3339] at htext
    obtain ⟨_, hcheck, -⟩ := Except.map_eq_ok_iff.1 htext
    exact dated_iff.2 hcheck
  · exact fun h => ⟨_, rfc3339_of_dated h⟩

end Timestamp

end OnlineFeatures
