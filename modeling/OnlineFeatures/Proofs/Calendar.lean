import Mathlib.Order.Monotone.Basic
import Mathlib.Tactic.Ring
import OnlineFeatures.Calendar

/-!
# Dates and day counts

The days from the first of January of the year 1 on are counted without gaps: the day after a date
has the next number (`Date.dayIndex_next`). A date is found back from its number, and every number
is that of a date (`Date.ofDayIndex_dayIndex`, `Date.dayIndex_ofDayIndex`), and so are times and
their seconds (`DateTime.ofSecond_localSecond`, `DateTime.localSecond_ofSecond`). The same time on
the day after is a day of seconds later (`DateTime.localSecond_nextDay`).

A year is found by a guess that is at most one off, since a year has 365.2425 days in the mean and
the first days of years stray from that by less than two. The month is found by counting off the
lengths of the months.
-/

namespace OnlineFeatures

/-! ## Years -/

/-- The days of a year. -/
def yearLength (year : Nat) : Nat := if isLeapYear year then 366 else 365

theorem sum_monthLengths (year : Nat) : (monthLengths year).sum = yearLength year := by
  rw [monthLengths, yearLength]
  cases isLeapYear year <;> rfl

theorem length_monthLengths (year : Nat) : (monthLengths year).length = 12 := rfl

/-- Every fourth year counts a day more, but not every hundredth, and again every four hundredth. -/
theorem daysBeforeYear_succ {year : Nat} (h : 0 < year) :
    daysBeforeYear (year + 1) = daysBeforeYear year + yearLength year := by
  obtain ⟨y, rfl⟩ := Nat.exists_eq_add_one_of_ne_zero h.ne'
  have hfourth := Nat.succ_div (a := y) (b := 4)
  have hhundredth := Nat.succ_div (a := y) (b := 100)
  have hfourHundredth := Nat.succ_div (a := y) (b := 400)
  have hleap : isLeapYear (y + 1) = true ↔ 4 ∣ y + 1 ∧ (¬ 100 ∣ y + 1 ∨ 400 ∣ y + 1) := by
    simp [isLeapYear, Nat.dvd_iff_mod_eq_zero]
  simp only [daysBeforeYear, yearLength, hleap, Nat.add_sub_cancel]
  split_ifs at hfourth hhundredth hfourHundredth ⊢ <;> omega

theorem daysBeforeYear_mono : Monotone daysBeforeYear := by
  refine monotone_nat_of_le_succ fun year => ?_
  rcases Nat.eq_zero_or_pos year with rfl | hpos
  · rfl
  · rw [daysBeforeYear_succ hpos]
    exact Nat.le_add_right _ _

/-- A day lies in one year only. -/
theorem year_unique {a b n : Nat} (hlow : daysBeforeYear a ≤ n) (hhigh : n < daysBeforeYear (a + 1))
    (hlow' : daysBeforeYear b ≤ n) (hhigh' : n < daysBeforeYear (b + 1)) : a = b := by
  rcases lt_trichotomy a b with hlt | heq | hgt
  · have := daysBeforeYear_mono (show a + 1 ≤ b by omega)
    omega
  · exact heq
  · have := daysBeforeYear_mono (show b + 1 ≤ a by omega)
    omega

namespace Date

theorem yearOfDay_spec (n : Nat) :
    0 < yearOfDay n ∧ daysBeforeYear (yearOfDay n) ≤ n ∧ n < daysBeforeYear (yearOfDay n + 1) := by
  simp only [yearOfDay]
  -- the guess is one too large at most, and one too small at most
  have hlow : daysBeforeYear (n * 400 / 146097) ≤ n := by
    simp only [daysBeforeYear]
    omega
  have hhigh : n < daysBeforeYear (n * 400 / 146097 + 3) := by
    simp only [daysBeforeYear]
    omega
  split
  · rename_i hlt
    have hpos : 0 < n * 400 / 146097 := by
      by_contra hzero
      have hguess : n * 400 / 146097 = 0 := by omega
      rw [hguess] at hlt
      exact Nat.not_lt_zero n hlt
    exact ⟨by omega, by simpa using hlow, by simpa using hlt⟩
  · rename_i hge
    split
    · rename_i hnext
      exact ⟨by omega, hnext, hhigh⟩
    · rename_i hnext
      exact ⟨by omega, by omega, by omega⟩

/-! ## Months -/

/-- Counting off lengths finds the place of a number among them. -/
theorem monthOfDay_spec {lengths : List Nat} {n : Nat} (h : n < lengths.sum) :
    ∃ length, lengths[(monthOfDay lengths n).1]? = some length ∧ (monthOfDay lengths n).2 < length ∧
      (lengths.take (monthOfDay lengths n).1).sum + (monthOfDay lengths n).2 = n := by
  induction lengths generalizing n with
  | nil => exact absurd h (Nat.not_lt_zero n)
  | cons length lengths ih =>
    rw [monthOfDay]
    split
    · rename_i hlt
      exact ⟨length, rfl, hlt, by simp⟩
    · rename_i hge
      rw [List.sum_cons] at h
      obtain ⟨found, hfound, hlt, hsum⟩ := ih (n := n - length) (by omega)
      refine ⟨found, by simpa using hfound, hlt, ?_⟩
      simp only [List.take_succ_cons, List.sum_cons]
      omega

/-- The place of a number is the one that it was made of. -/
theorem monthOfDay_sum {lengths : List Nat} {month day length : Nat}
    (hlength : lengths[month]? = some length) (hday : day < length) :
    monthOfDay lengths ((lengths.take month).sum + day) = (month, day) := by
  induction lengths generalizing month with
  | nil => cases hlength
  | cons first lengths ih =>
    cases month with
    | zero =>
      obtain rfl : first = length := by simpa using hlength
      rw [List.take_zero, List.sum_nil, Nat.zero_add, monthOfDay, if_pos hday]
    | succ month =>
      have hrest : monthOfDay lengths ((lengths.take month).sum + day) = (month, day) :=
        ih (by simpa using hlength)
      rw [List.take_succ_cons, List.sum_cons, monthOfDay, if_neg (by omega),
        show first + (lengths.take month).sum + day - first = (lengths.take month).sum + day by
          omega, hrest]

theorem take_month_lt {lengths : List Nat} {month day length : Nat}
    (hlength : lengths[month]? = some length) (hday : day < length) :
    (lengths.take month).sum + day < lengths.sum := by
  induction lengths generalizing month with
  | nil => cases hlength
  | cons first lengths ih =>
    cases month with
    | zero =>
      obtain rfl : first = length := by simpa using hlength
      simp only [List.take_zero, List.sum_nil, List.sum_cons]
      omega
    | succ month =>
      have hrest : (lengths.take month).sum + day < lengths.sum := ih (by simpa using hlength)
      simp only [List.take_succ_cons, List.sum_cons]
      omega

/-! ## Dates -/

/-- Whether there is a date in the calendar, which ends with the year 9999. -/
structure Valid (d : Date) : Prop where
  year : 1 ≤ d.year ∧ d.year ≤ 9999
  month : 1 ≤ d.month ∧ d.month ≤ 12
  day : 1 ≤ d.day ∧ ∀ length, (monthLengths d.year)[d.month - 1]? = some length → d.day ≤ length

/-- The day of the year, from 0. -/
def dayOfYear (d : Date) : Nat := ((monthLengths d.year).take (d.month - 1)).sum + (d.day - 1)

theorem dayIndex_eq (d : Date) : d.dayIndex = daysBeforeYear d.year + d.dayOfYear := by
  rw [dayIndex, dayOfYear, List.sum_eq_foldl, Nat.add_assoc]

theorem Valid.exists_length {d : Date} (h : d.Valid) :
    ∃ length, (monthLengths d.year)[d.month - 1]? = some length ∧ d.day - 1 < length := by
  have hmonth : d.month - 1 < (monthLengths d.year).length := by
    have := h.month
    rw [length_monthLengths]
    omega
  have hlength := List.getElem?_eq_getElem hmonth
  have hday := h.day.2 _ hlength
  exact ⟨_, hlength, by have := h.day.1; omega⟩

theorem Valid.dayOfYear_lt {d : Date} (h : d.Valid) : d.dayOfYear < yearLength d.year := by
  obtain ⟨length, hlength, hday⟩ := h.exists_length
  rw [← sum_monthLengths]
  exact take_month_lt hlength hday

theorem Valid.dayIndex_lt {d : Date} (h : d.Valid) : d.dayIndex < daysBeforeYear (d.year + 1) := by
  have := h.dayOfYear_lt
  rw [dayIndex_eq, daysBeforeYear_succ h.year.1]
  omega

theorem ofDayIndex_dayIndex {d : Date} (h : d.Valid) : ofDayIndex d.dayIndex = d := by
  obtain ⟨length, hlength, hday⟩ := h.exists_length
  have hyear : yearOfDay d.dayIndex = d.year := by
    obtain ⟨-, hlow, hhigh⟩ := yearOfDay_spec d.dayIndex
    refine year_unique hlow hhigh ?_ h.dayIndex_lt
    rw [dayIndex_eq]
    omega
  have hrest : d.dayIndex - daysBeforeYear d.year = d.dayOfYear := by
    rw [dayIndex_eq]
    omega
  have hmonth := h.month
  have hdays := h.day.1
  rw [ofDayIndex, hyear, hrest, dayOfYear, monthOfDay_sum hlength hday]
  obtain ⟨year, month, day⟩ := d
  simp only [mk.injEq, true_and] at hmonth hdays ⊢
  omega

/-- Every number of days is that of a date. -/
theorem dayIndex_ofDayIndex {n : Nat} (h : n < daysBeforeYear 10000) :
    (ofDayIndex n).Valid ∧ (ofDayIndex n).dayIndex = n := by
  obtain ⟨hpos, hlow, hhigh⟩ := yearOfDay_spec n
  have hyear : yearOfDay n ≤ 9999 := by
    by_contra hlate
    have := daysBeforeYear_mono (show 10000 ≤ yearOfDay n by omega)
    omega
  have hday : n - daysBeforeYear (yearOfDay n) < (monthLengths (yearOfDay n)).sum := by
    rw [sum_monthLengths]
    rw [daysBeforeYear_succ hpos] at hhigh
    omega
  obtain ⟨length, hlength, hlt, hsum⟩ := monthOfDay_spec hday
  have hmonth :
      (monthOfDay (monthLengths (yearOfDay n)) (n - daysBeforeYear (yearOfDay n))).1 < 12 := by
    rw [← length_monthLengths (yearOfDay n)]
    exact (List.getElem?_eq_some_iff.1 hlength).1
  constructor
  · refine ⟨⟨hpos, hyear⟩, ⟨Nat.succ_pos _, hmonth⟩, Nat.succ_pos _, fun length' hlength' => ?_⟩
    obtain rfl := Option.some.inj (hlength.symm.trans hlength')
    exact hlt
  · rw [dayIndex_eq, dayOfYear]
    simp only [ofDayIndex, Nat.add_sub_cancel]
    omega

/-- The day after a date. -/
def next (d : Date) : Date :=
  if (monthLengths d.year)[d.month - 1]? ≠ some d.day then ⟨d.year, d.month, d.day + 1⟩
  else if d.month ≠ 12 then ⟨d.year, d.month + 1, 1⟩
  else ⟨d.year + 1, 1, 1⟩

/-- Days are counted without gaps. -/
theorem dayIndex_next {d : Date} (h : d.Valid) : d.next.dayIndex = d.dayIndex + 1 := by
  obtain ⟨length, hlength, hday⟩ := h.exists_length
  have hdays := h.day.1
  rw [next, hlength, dayIndex_eq, dayIndex_eq, dayOfYear, dayOfYear]
  split
  · simp only [Nat.add_sub_cancel]
    omega
  · rename_i hlast
    obtain rfl : length = d.day := by simpa using hlast
    have htake : ((monthLengths d.year).take (d.month - 1 + 1)).sum =
        ((monthLengths d.year).take (d.month - 1)).sum + d.day := by
      rw [List.take_add_one, hlength, List.sum_append]
      rfl
    have hmonth := h.month
    rw [show d.month - 1 + 1 = d.month by omega] at htake
    split
    · simp only [Nat.add_sub_cancel, htake]
      omega
    · rename_i hDecember
      have hwhole : ((monthLengths d.year).take d.month).sum = yearLength d.year := by
        rw [not_not.1 hDecember, ← length_monthLengths d.year, List.take_length, sum_monthLengths]
      rw [daysBeforeYear_succ h.year.1]
      simp only [Nat.sub_self, List.take_zero, List.sum_nil]
      omega

end Date

/-! ## Times -/

namespace DateTime

/-- Whether there is a time in the calendar. -/
structure Valid (t : DateTime) : Prop where
  date : t.date.Valid
  hour : t.hour < 24
  minute : t.minute < 60
  second : t.second < 60
  microsecond : t.microsecond < 1000000

theorem Valid.localSecond_lt {t : DateTime} (h : t.Valid) : t.localSecond < calendarEnd := by
  have hday : t.date.dayIndex < daysBeforeYear 10000 :=
    h.date.dayIndex_lt.trans_le (daysBeforeYear_mono (Nat.succ_le_succ h.date.year.2))
  have hhour := h.hour
  have hminute := h.minute
  have hsecond := h.second
  rw [localSecond, calendarEnd, secondsPerDay]
  omega

/-- The same time on the day after. -/
def nextDay (t : DateTime) : DateTime := { t with date := t.date.next }

/-- A day has as many seconds as are counted for it. -/
theorem localSecond_nextDay {t : DateTime} (h : t.date.Valid) :
    t.nextDay.localSecond = t.localSecond + secondsPerDay := by
  simp only [nextDay, localSecond, Date.dayIndex_next h]
  ring

theorem ofSecond_localSecond {t : DateTime} (h : t.Valid) :
    ofSecond t.localSecond t.microsecond = { t with offset := some 0 } := by
  have hhour := h.hour
  have hminute := h.minute
  have hsecond := h.second
  have hday : t.localSecond / secondsPerDay = t.date.dayIndex := by
    rw [localSecond, secondsPerDay]
    omega
  have htime : t.localSecond % secondsPerDay = t.hour * 3600 + t.minute * 60 + t.second := by
    rw [localSecond, secondsPerDay]
    omega
  rw [ofSecond, hday, htime, Date.ofDayIndex_dayIndex h.date]
  simp only [mk.injEq, true_and, and_true]
  omega

/-- Every second is that of a time. -/
theorem localSecond_ofSecond {n microsecond : Nat} (h : n < calendarEnd)
    (hmicrosecond : microsecond < 1000000) :
    (ofSecond n microsecond).Valid ∧ (ofSecond n microsecond).localSecond = n := by
  have hday : n / secondsPerDay < daysBeforeYear 10000 :=
    Nat.div_lt_of_lt_mul (by rwa [Nat.mul_comm])
  obtain ⟨hvalid, hindex⟩ := Date.dayIndex_ofDayIndex hday
  have hmod : n % secondsPerDay < secondsPerDay := Nat.mod_lt n (by decide)
  have hdivmod := Nat.div_add_mod n secondsPerDay
  rw [secondsPerDay] at hindex hmod hdivmod
  constructor
  · refine ⟨hvalid, ?_, ?_, ?_, hmicrosecond⟩ <;> simp only [ofSecond, secondsPerDay] <;> omega
  · simp only [localSecond, ofSecond, secondsPerDay, hindex]
    omega

end DateTime

/-- The seconds of the epoch are counted from the first of January 1970. -/
example : (⟨⟨1970, 1, 1⟩, 0, 0, 0, 0, none⟩ : DateTime).localSecond = epochSecond := by decide

end OnlineFeatures
