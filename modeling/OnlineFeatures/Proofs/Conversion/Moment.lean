import OnlineFeatures.Conversion.Moment
import OnlineFeatures.Proofs.Message.TimestampText

/-!
# Timestamps of moments and times

A moment given by seconds and nanoseconds has a timestamp exactly if it lies in the calendar
(`Timestamp.ofMoment_eq_ok_iff`). A time has one exactly if it has a form in UTC, and the timestamp
is that of this form (`Timestamp.ofDateTime_eq_ok_iff`); timestamps of times are ordered as the
instants are (`Timestamp.ofDateTime_eq_iff`, `Timestamp.ofDateTime_precedes_iff`).
-/

namespace OnlineFeatures

namespace Timestamp

/-- The timestamps of the calendar are those of the moments in it. -/
theorem ofMoment_eq_ok_iff {seconds nanos : Int} {t : Timestamp} :
    ofMoment seconds nanos = .ok t ↔
      t.Dated ∧ t.seconds.toInt = seconds ∧ t.nanos.toInt = nanos ∧ t.unknown = [] := by
  rw [ofMoment, Except.map_eq_ok_iff]
  constructor
  · rintro ⟨_, hcheck, rfl⟩
    obtain ⟨hseconds, hnanos⟩ := checkMoment_eq_ok_iff.1 hcheck
    have hsecondsInt : (Int64.ofInt seconds).toInt = seconds :=
      Int64.toInt_ofInt_of_le (by omega) (by omega)
    have hnanosInt : (Int32.ofInt nanos).toInt = nanos :=
      Int32.toInt_ofInt_of_le (by omega) (by omega)
    exact ⟨⟨by simpa only [hsecondsInt] using hseconds, by simpa only [hnanosInt] using hnanos⟩,
      hsecondsInt, hnanosInt, rfl⟩
  · rintro ⟨hdated, rfl, rfl, hunknown⟩
    refine ⟨(), dated_iff.1 hdated, ?_⟩
    rw [Int64.ofInt_toInt, Int32.ofInt_toInt, ← hunknown]

theorem exists_ofMoment_iff {seconds nanos : Int} :
    (∃ t, ofMoment seconds nanos = .ok t) ↔
      (-62135596800 ≤ seconds ∧ seconds ≤ 253402300799) ∧ 0 ≤ nanos ∧ nanos ≤ 999999999 := by
  rw [← checkMoment_eq_ok_iff, ofMoment]
  cases checkMoment seconds nanos <;> simp [Except.map]

/-- Whether a timestamp lies before another one. -/
def Precedes (a b : Timestamp) : Prop :=
  a.seconds.toInt < b.seconds.toInt ∨
    a.seconds.toInt = b.seconds.toInt ∧ a.nanos.toInt < b.nanos.toInt

/-- The nanoseconds from 1970 to a timestamp. -/
def totalNanos (t : Timestamp) : Int := t.seconds.toInt * 1000000000 + t.nanos.toInt

/-- A timestamp of the calendar is told by its nanoseconds, fields that are not known here apart. -/
theorem Dated.eq_iff {t u : Timestamp} (ht : t.Dated) (hu : u.Dated)
    (hunknown : t.unknown = u.unknown) :
    t = u ↔ t.totalNanos = u.totalNanos := by
  constructor
  · exact congrArg totalNanos
  · intro htotal
    have hnanos := ht.nanos
    have hnanos' := hu.nanos
    obtain ⟨seconds, nanos, unknown⟩ := t
    obtain ⟨seconds', nanos', unknown'⟩ := u
    simp only [totalNanos] at htotal hnanos hnanos' hunknown
    obtain rfl : seconds = seconds' := Int64.toInt_inj.1 (by omega)
    obtain rfl : nanos = nanos' := Int32.toInt_inj.1 (by omega)
    rw [hunknown]

theorem Dated.precedes_iff {t u : Timestamp} (ht : t.Dated) (hu : u.Dated) :
    t.Precedes u ↔ t.totalNanos < u.totalNanos := by
  have hnanos := ht.nanos
  have hnanos' := hu.nanos
  rw [Precedes, totalNanos, totalNanos]
  omega

end Timestamp

/-! ## Times -/

namespace DateTime

/-- Whether a time is the form of another one in UTC. -/
structure IsUtcOf (u t : DateTime) : Prop where
  valid : u.Valid
  offset : u.offset = some 0
  second : (u.localSecond : Int) = t.localSecond - t.offset.getD 0
  microsecond : u.microsecond = t.microsecond

/-- The instant of a time, in microseconds from the beginning of the year 1 in UTC. -/
def instant (t : DateTime) : Int := (t.localSecond - t.offset.getD 0) * 1000000 + t.microsecond

theorem instant_nextDay {t : DateTime} (h : t.date.Valid) :
    t.nextDay.instant = t.instant + secondsPerDay * 1000000 := by
  rw [instant, instant, localSecond_nextDay h]
  push_cast [nextDay]
  ring

/-- Whether a time falls into the years 1 to 9999 in UTC. -/
def InCalendar (t : DateTime) : Prop := 0 ≤ t.utcSecond ∧ t.utcSecond < calendarEnd

instance : DecidablePred InCalendar := fun _ => inferInstanceAs (Decidable (_ ∧ _))

theorem exists_isUtcOf_iff {t : DateTime} (h : t.microsecond < 1000000) :
    (∃ u, IsUtcOf u t) ↔ t.InCalendar := by
  constructor
  · rintro ⟨u, hu⟩
    have hlt := hu.valid.localSecond_lt
    have hsecond := hu.second
    rw [InCalendar, utcSecond]
    omega
  · rintro ⟨hlow, hhigh⟩
    obtain ⟨hvalid, hsecond⟩ := localSecond_ofSecond (n := t.utcSecond.toNat) (by omega) h
    refine ⟨_, hvalid, rfl, ?_, rfl⟩
    rw [hsecond, Int.toNat_of_nonneg hlow]
    rfl

/-- A time has one form in UTC at most. -/
theorem IsUtcOf.unique {u v t : DateTime} (hu : IsUtcOf u t) (hv : IsUtcOf v t) : u = v := by
  have hsecond : u.localSecond = v.localSecond := by
    have := hu.second
    have := hv.second
    omega
  have heq : ({ u with offset := some 0 } : DateTime) = { v with offset := some 0 } := by
    rw [← ofSecond_localSecond hu.valid, ← ofSecond_localSecond hv.valid, hsecond, hu.microsecond,
      hv.microsecond]
  rw [← hu.offset, show ({ v with offset := u.offset } : DateTime) =
    v by rw [hu.offset, ← hv.offset]] at heq
  exact heq

end DateTime

namespace Timestamp

theorem ofDateTime_of_not_inCalendar {t : DateTime} (h : ¬ t.InCalendar) :
    ofDateTime t = .error .calendar := if_neg h

theorem ofDateTime_eq_ok_iff {t : DateTime} {ts : Timestamp} :
    ofDateTime t = .ok ts ↔ ∃ u : DateTime, u.IsUtcOf t ∧ ts.Dated ∧
      ts.seconds.toInt = u.localSecond - epochSecond ∧ ts.nanos.toInt = u.microsecond * 1000 ∧
        ts.unknown = [] := by
  by_cases hin : t.InCalendar
  · have hmoment : ofDateTime t =
        (ofMoment (t.utcSecond - epochSecond) (t.microsecond * 1000)).mapError .invalid :=
          if_pos hin
    rw [hmoment, Except.mapError_eq_ok_iff, ofMoment_eq_ok_iff]
    constructor
    · rintro ⟨hdated, hseconds, hnanos, hunknown⟩
      have hmicrosecond : t.microsecond < 1000000 := by
        have := hdated.nanos
        omega
      obtain ⟨u, hu⟩ := (DateTime.exists_isUtcOf_iff hmicrosecond).2 hin
      exact ⟨u, hu,
        hdated, by
        rw [hseconds, hu.second, DateTime.utcSecond], by rw [hnanos, hu.microsecond], hunknown⟩
    · rintro ⟨u, hu, hdated, hseconds, hnanos, hunknown⟩
      exact ⟨hdated, by rw [hseconds, hu.second, DateTime.utcSecond], by
        rw [hnanos, hu.microsecond], hunknown⟩
  · rw [ofDateTime_of_not_inCalendar hin]
    constructor
    · intro h
      cases h
    · rintro ⟨u, hu, -⟩
      exact absurd
        ((DateTime.exists_isUtcOf_iff (hu.microsecond ▸ hu.valid.microsecond)).1 ⟨u, hu⟩) hin

/-- A time has a timestamp exactly if it has a form in UTC. -/
theorem exists_ofDateTime_iff {t : DateTime} :
    (∃ ts, ofDateTime t = .ok ts) ↔ ∃ u, DateTime.IsUtcOf u t := by
  constructor
  · rintro ⟨ts, hts⟩
    obtain ⟨u, hu, -⟩ := ofDateTime_eq_ok_iff.1 hts
    exact ⟨u, hu⟩
  · rintro ⟨u, hu⟩
    have hsecond := hu.valid.localSecond_lt
    have hmicrosecond := hu.valid.microsecond
    have hend : calendarEnd = 315537897600 := by decide
    have hepoch : epochSecond = 62135596800 := by decide
    obtain ⟨ts, hts⟩ :
      ∃ ts, ofMoment (u.localSecond - epochSecond) (u.microsecond * 1000) = .ok ts :=
      exists_ofMoment_iff.2 (by omega)
    exact ⟨ts, ofDateTime_eq_ok_iff.2 ⟨u, hu, ofMoment_eq_ok_iff.1 hts⟩⟩

theorem ofDateTime_of_isUtcOf {u t : DateTime} (hu : u.IsUtcOf t) {ts : Timestamp}
    (hts : ofDateTime t = .ok ts) :
    ts.Dated ∧ ts.seconds.toInt = u.localSecond - epochSecond ∧
      ts.nanos.toInt = u.microsecond * 1000 ∧
      ts.unknown = [] := by
  obtain ⟨v, hv, hts⟩ := ofDateTime_eq_ok_iff.1 hts
  exact hu.unique hv ▸ hts

/-- The text of the timestamp of a time is that of its form in UTC. -/
theorem rfc3339_ofDateTime {u t : DateTime} {ts : Timestamp} (hu : u.IsUtcOf t)
    (hts : ofDateTime t = .ok ts) :
    ∃ text, Rfc3339 u text ∧ ts.rfc3339 = .ok (String.ofList text) := by
  obtain ⟨hdated, hseconds, hnanos, -⟩ := ofDateTime_of_isUtcOf hu hts
  refine ⟨_, rfc3339_isoText hu.valid, ?_⟩
  have hsecond : (ts.seconds.toInt + epochSecond).toNat = u.localSecond := by omega
  have hmicrosecond : ts.nanos.toInt.toNat = u.microsecond * 1000 := by omega
  have htime : (DateTime.ofSecond u.localSecond 0).isoText = u.isoText := by
    -- the text shows neither the microseconds nor the offset
    calc (DateTime.ofSecond u.localSecond 0).isoText
        = (DateTime.ofSecond u.localSecond u.microsecond).isoText := rfl
      _ = ({ u with offset := some 0 } : DateTime).isoText := by
        rw [DateTime.ofSecond_localSecond hu.valid]
      _ = u.isoText := rfl
  rw [rfc3339_of_dated hdated, hsecond, hmicrosecond, htime, String.ofList_toList]

section Order

variable {u t u' t' : DateTime} {ts ts' : Timestamp} (hu : u.IsUtcOf t) (hu' : u'.IsUtcOf t')
  (hts : ofDateTime t = .ok ts) (hts' : ofDateTime t' = .ok ts')

include hu hts in
/-- The timestamp of a time counts the instant of it from 1970. -/
theorem totalNanos_ofDateTime :
    ts.Dated ∧ ts.unknown = [] ∧ ts.totalNanos = (t.instant - epochSecond * 1000000) * 1000 := by
  obtain ⟨hdated, hseconds, hnanos, hunknown⟩ := ofDateTime_of_isUtcOf hu hts
  refine ⟨hdated, hunknown, ?_⟩
  rw [totalNanos, DateTime.instant, ← hu.second, ← hu.microsecond, hseconds, hnanos]
  ring

include hu hu' hts hts'

/-- Times have the same timestamp exactly if they are of the same instant. -/
theorem ofDateTime_eq_iff : ts = ts' ↔ t.instant = t'.instant := by
  obtain ⟨hdated, hunknown, htotal⟩ := totalNanos_ofDateTime hu hts
  obtain ⟨hdated', hunknown', htotal'⟩ := totalNanos_ofDateTime hu' hts'
  rw [hdated.eq_iff hdated' (hunknown.trans hunknown'.symm), htotal, htotal']
  omega

/-- Timestamps of times are ordered as the instants are. -/
theorem ofDateTime_precedes_iff : ts.Precedes ts' ↔ t.instant < t'.instant := by
  obtain ⟨hdated, -, htotal⟩ := totalNanos_ofDateTime hu hts
  obtain ⟨hdated', -, htotal'⟩ := totalNanos_ofDateTime hu' hts'
  rw [hdated.precedes_iff hdated', htotal, htotal']
  omega

end Order

end Timestamp

end OnlineFeatures
