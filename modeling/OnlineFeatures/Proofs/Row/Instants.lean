import OnlineFeatures.Failure
import OnlineFeatures.Row.Print
import OnlineFeatures.Proofs.Conversion.Moment

/-!
# Rows at times

A row set to a time holds the instant of it. The row is shown with the text of the time in UTC,
whatever the offset that the time is given with, and rows are at the same timestamp, or one before
the other, as the instants are. A time whose form in UTC falls out of the calendar is refused, and
the row stays as it is (`Row.setTimestamp_dateTime`).
-/

namespace OnlineFeatures

namespace Row

/-- The text of a row whose point in time has a text. -/
def shownAt (r : Row) (moment : List Char) : String :=
  "Row(fields=" ++ bracedMap (r.fields.entries.map fun (k, v) => (k, v.shown)) ++
    ", statuses=" ++ bracedMap (r.statuses.entries.map fun (k, s) => (k, quoted s.name)) ++
    ", entity_timestamp=" ++ String.ofList moment ++ ")"

theorem shown_eq_shownAt {r : Row} {moment : List Char}
    (h : r.timestamp.rfc3339 = .ok (String.ofList moment)) :
    r.shown = .ok (r.shownAt moment) := by
  rw [shown, h]
  rfl

/-- Whether a row is another one moved to a time in UTC: it is shown with a text of this time, and
its timestamp has whole microseconds. -/
structure MovedTo (r : Row) (u : DateTime) (moved : Row) : Prop where
  fields : moved.fields = r.fields
  statuses : moved.statuses = r.statuses
  nanos : 0 ≤ moved.timestamp.nanos.toInt ∧ moved.timestamp.nanos.toInt ≤ 999999000
  text : ∃ moment, Rfc3339 u moment ∧ moved.shown = .ok (r.shownAt moment)

theorem setTimestamp_of_ok {r : Row} {v : Native} {ts : Timestamp} (h : v.toTimestamp = .ok ts) :
    r.setTimestamp v = ({ r with timestamp := ts }, .ok ()) := by
  rw [setTimestamp, h]

theorem setTimestamp_of_error {r : Row} {v : Native} {why : MomentFault}
    (h : v.toTimestamp = .error why) :
    r.setTimestamp v = (r, .error why) := by
  rw [setTimestamp, h]

theorem movedTo_setTimestamp {u t : DateTime} (hu : u.IsUtcOf t) (r : Row) :
    (r.setTimestamp (.dateTime t)).2 = .ok () ∧ MovedTo r u (r.setTimestamp (.dateTime t)).1 := by
  obtain ⟨ts, hts⟩ := Timestamp.exists_ofDateTime_iff.2 ⟨u, hu⟩
  obtain ⟨-, -, hnanos, -⟩ := Timestamp.ofDateTime_of_isUtcOf hu hts
  obtain ⟨moment, hmoment, htext⟩ := Timestamp.rfc3339_ofDateTime hu hts
  have hmicrosecond := hu.valid.microsecond
  have hbounds : 0 ≤ ts.nanos.toInt ∧ ts.nanos.toInt ≤ 999999000 := by omega
  rw [setTimestamp_of_ok (v := .dateTime t) hts]
  exact ⟨rfl, rfl, rfl, hbounds, moment, hmoment, shown_eq_shownAt htext⟩

/-- The timestamp of a row set to a time counts the instant of the time from 1970. -/
theorem totalNanos_setTimestamp {t : DateTime} (h : t.microsecond < 1000000)
    (hin : t.InCalendar) (r : Row) :
    (r.setTimestamp (.dateTime t)).1.timestamp.totalNanos =
      (t.instant - epochSecond * 1000000) * 1000 := by
  obtain ⟨u, hu⟩ := (DateTime.exists_isUtcOf_iff h).2 hin
  obtain ⟨ts, hts⟩ := Timestamp.exists_ofDateTime_iff.2 ⟨u, hu⟩
  rw [setTimestamp_of_ok (v := .dateTime t) hts]
  exact (Timestamp.totalNanos_ofDateTime hu hts).2.2

/-- What becomes of a row set to a time.

If the form of the time in UTC lies in the calendar, the row moves there and is shown with the text
of this form. If it does not, the call overflows and the row is unchanged. Rows set to two such
times have the same timestamp exactly if the times are of the same instant, and one timestamp lies
before the other exactly if its instant does. The same time on the day after makes the timestamp
later by the length of a day. -/
theorem setTimestamp_dateTime {t : DateTime} (h : t.Valid) (r : Row) :
    (t.InCalendar → ∃ u, u.IsUtcOf t ∧ (r.setTimestamp (.dateTime t)).2 = .ok () ∧
      MovedTo r u (r.setTimestamp (.dateTime t)).1) ∧
    (¬ t.InCalendar → ∃ why, r.setTimestamp (.dateTime t) = (r, .error why) ∧
      (Failure.moment why).kind = .tooLarge) ∧
    ∀ (r' : Row) {t' : DateTime}, t'.Valid → t.InCalendar → t'.InCalendar →
      let ts := (r.setTimestamp (.dateTime t)).1.timestamp
      let ts' := (r'.setTimestamp (.dateTime t')).1.timestamp
      (ts = ts' ↔ t.instant = t'.instant) ∧ (ts.Precedes ts' ↔ t.instant < t'.instant) ∧
        (t' = t.nextDay → ts'.totalNanos = ts.totalNanos + secondsPerDay * 1000000000) := by
  refine ⟨fun hin => ?_, fun hout => ?_, fun r' t' h' hin hin' => ?_⟩
  · obtain ⟨u, hu⟩ := (DateTime.exists_isUtcOf_iff h.microsecond).2 hin
    exact ⟨u, hu, movedTo_setTimestamp hu r⟩
  · exact ⟨.calendar,
      setTimestamp_of_error (v := .dateTime t) (Timestamp.ofDateTime_of_not_inCalendar hout), rfl⟩
  · obtain ⟨u, hu⟩ := (DateTime.exists_isUtcOf_iff h.microsecond).2 hin
    obtain ⟨u', hu'⟩ := (DateTime.exists_isUtcOf_iff h'.microsecond).2 hin'
    obtain ⟨ts, hts⟩ := Timestamp.exists_ofDateTime_iff.2 ⟨u, hu⟩
    obtain ⟨ts', hts'⟩ := Timestamp.exists_ofDateTime_iff.2 ⟨u', hu'⟩
    have htotal := totalNanos_setTimestamp h.microsecond hin r
    have htotal' := totalNanos_setTimestamp h'.microsecond hin' r'
    rw [setTimestamp_of_ok (v := .dateTime t) hts] at htotal ⊢
    rw [setTimestamp_of_ok (v := .dateTime t') hts'] at htotal' ⊢
    refine ⟨Timestamp.ofDateTime_eq_iff hu hu' hts hts',
      Timestamp.ofDateTime_precedes_iff hu hu' hts hts', ?_⟩
    rintro rfl
    rw [htotal', DateTime.instant_nextDay h.date, htotal]
    ring

/-- Half past midnight on the first of March, an hour east of UTC, is still the 29th of February
there; and the first hour of the calendar is outside it there. -/
theorem setTimestamp_dateTime_borders :
    let march : DateTime := ⟨⟨2024, 3, 1⟩, 0, 30, 0, 123456, some 3600⟩
    let february : DateTime := ⟨⟨2024, 2, 29⟩, 23, 30, 0, 123456, none⟩
    let early : DateTime := ⟨⟨1, 1, 1⟩, 0, 30, 0, 0, some 3600⟩
    let r : Row := .emptyAt (.ofSeconds 0)
    march.Valid ∧ february.Valid ∧ early.Valid ∧ march.InCalendar ∧ february.InCalendar ∧
      ¬ early.InCalendar ∧
    (∃ u, u.IsUtcOf march ∧ MovedTo r u (r.setTimestamp (.dateTime march)).1) ∧
    (r.setTimestamp (.dateTime march)).1.timestamp =
      (r.setTimestamp (.dateTime february)).1.timestamp ∧
    (r.setTimestamp (.dateTime early)).1 = r ∧
    (r.setTimestamp (.dateTime march)).1.shown =
      .ok ("Row(fields=\x7b\x7d, statuses=\x7b\x7d, " ++
        "entity_timestamp=2024-02-29T23:30:00.123456Z)") := by
  intro march february early r
  have hvalid {y m d hour minute microsecond : Nat} {offset : Option Int} (hyear : 1 ≤ y ∧ y ≤ 9999)
      (hmonth : 1 ≤ m ∧ m ≤ 12) (hday : 1 ≤ d ∧ ∀ length ∈ (monthLengths y)[m - 1]?, d ≤ length)
      (hhour : hour < 24) (hminute : minute < 60) (hmicrosecond : microsecond < 1000000) :
      (⟨⟨y, m, d⟩, hour, minute, 0, microsecond, offset⟩ : DateTime).Valid :=
    ⟨⟨hyear, hmonth, hday⟩, hhour, hminute, Nat.succ_pos 59, hmicrosecond⟩
  have hmarch : march.Valid :=
    hvalid (by decide) (by decide) (by decide) (by decide) (by decide) (by decide)
  have hfebruary : february.Valid :=
    hvalid (by decide) (by decide) (by decide) (by decide) (by decide) (by decide)
  have hearly : early.Valid :=
    hvalid (by decide) (by decide) (by decide) (by decide) (by decide) (by decide)
  have hmarchIn : march.InCalendar := by decide
  have hfebruaryIn : february.InCalendar := by decide
  have hearlyOut : ¬ early.InCalendar := by decide
  obtain ⟨hmoves, -, hsame⟩ := setTimestamp_dateTime hmarch r
  obtain ⟨u, hu, -, hmoved⟩ := hmoves hmarchIn
  obtain ⟨why, hrefused, -⟩ := (setTimestamp_dateTime hearly r).2.1 hearlyOut
  refine ⟨hmarch, hfebruary, hearly, hmarchIn, hfebruaryIn, hearlyOut, ⟨u, hu, hmoved⟩,
    (hsame r hfebruary hmarchIn hfebruaryIn).1.2 (by decide), by rw [hrefused], by decide +kernel⟩

end Row

end OnlineFeatures
