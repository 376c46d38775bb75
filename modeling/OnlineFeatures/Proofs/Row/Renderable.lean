import OnlineFeatures.Proofs.Conversion.Seconds
import OnlineFeatures.Proofs.Row.History
import OnlineFeatures.Proofs.Row.Instants

/-!
# Rows that can be shown

A row is shown with its point in time, so it can be shown exactly while this lies in the years 1 to
9999 (`Row.exists_shown_iff`). Times and floats are held to these years when they are set. Integers
are held to 64 bits only and timestamps to nothing, and one that lies out of the calendar is taken
all the same (`Native.toTimestamp_cases`).

In a run from a new row, then, the point in time stays in the calendar exactly if no such value is
set (`SharedRow.keepsTime_iff`): `Row.dated_step` says what one step does to a row whose point in
time is in the calendar.
-/

namespace OnlineFeatures

/-! ## What is taken for a point in time -/

namespace Native

/-- Whether a value is a point in time in the years 1 to 9999. -/
def Dated : Native → Prop
  | timestamp t => t.Dated
  | dateTime t => ∃ u, DateTime.IsUtcOf u t
  | int n => -62135596800 ≤ n ∧ n ≤ 253402300799
  | status s => -62135596800 ≤ (s.number : Int) ∧ (s.number : Int) ≤ 253402300799
  | float x => ∃ q, x.toRat? = some q ∧ -62135596800 ≤ q ∧ q < 253402300800
  | _ => False

/-- Whether a value is taken for a point in time without a look at the calendar. -/
def Unchecked : Native → Prop
  | timestamp _ => True
  | int n => -2 ^ 63 ≤ n ∧ n < 2 ^ 63
  | _ => False

/-- Whether a value is taken for a point in time. -/
def Taken (v : Native) : Prop := v.Dated ∨ v.Unchecked

/-- Values that are taken, and no others, make timestamps, and these lie in the calendar exactly if
the values do. -/
theorem toTimestamp_cases (v : Native) :
    (∃ t, v.toTimestamp = .ok t ∧ (t.Dated ↔ v.Dated) ∧ v.Taken) ∨
      (∃ why, v.toTimestamp = .error why) ∧ ¬ v.Taken := by
  -- times and floats are checked; a timestamp is taken as it is, and so are integers of 64 bits
  cases v with
  | timestamp t => exact .inl ⟨t, rfl, Iff.rfl, .inr trivial⟩
  | dateTime t =>
    cases h : Timestamp.ofDateTime t with
    | ok ts =>
      obtain ⟨u, hu, hdated, -⟩ := Timestamp.ofDateTime_eq_ok_iff.1 h
      exact .inl ⟨ts, h, iff_of_true hdated ⟨u, hu⟩, .inl ⟨u, hu⟩⟩
    | error why =>
      refine .inr ⟨⟨why, h⟩, not_or.2 ⟨fun hform => ?_, id⟩⟩
      obtain ⟨ts, hts⟩ := Timestamp.exists_ofDateTime_iff.2 hform
      cases h.symm.trans hts
  | int n =>
    cases h : Timestamp.ofWholeSeconds n with
    | ok t =>
      exact .inl ⟨t, h, Timestamp.dated_ofWholeSeconds h,
      .inr (Timestamp.exists_ofWholeSeconds_iff.1 ⟨t, h⟩)⟩
    | error why =>
      have hwide : ¬ (-2 ^ 63 ≤ n ∧ n < 2 ^ 63) := by
        rw [← Timestamp.exists_ofWholeSeconds_iff, h]
        rintro ⟨t, ⟨⟩⟩
      refine .inr ⟨⟨why, h⟩, not_or.2 ⟨fun hdated => hwide ?_, hwide⟩⟩
      simp only [Dated] at hdated
      omega
  | status s =>
    have hsmall : (s.number : Int) ≤ 4 := by cases s <;> decide
    have hnarrow : -2 ^ 63 ≤ (s.number : Int) ∧ (s.number : Int) < 2 ^ 63 := by omega
    have hdated : -62135596800 ≤ (s.number : Int) ∧ (s.number : Int) ≤ 253402300799 := by omega
    obtain ⟨t, ht⟩ := Timestamp.exists_ofWholeSeconds_iff.2 hnarrow
    exact .inl ⟨t, ht, Timestamp.dated_ofWholeSeconds ht, .inl hdated⟩
  | float x =>
    cases h : Timestamp.ofFloat x with
    | ok t =>
      have hnumber := Timestamp.exists_ofFloat_iff.1 ⟨t, h⟩
      exact .inl ⟨t, h, iff_of_true (Timestamp.dated_of_ofFloat h) hnumber, .inl hnumber⟩
    | error why =>
      refine .inr ⟨⟨why, h⟩, not_or.2 ⟨fun hnumber => ?_, id⟩⟩
      obtain ⟨t, ht⟩ := Timestamp.exists_ofFloat_iff.2 hnumber
      cases h.symm.trans ht
  | _ => exact .inr ⟨⟨_, rfl⟩, not_or.2 ⟨id, id⟩⟩

end Native

/-! ## Steps -/

/-- Whether a step writes into the timestamp that a row gave away. -/
def SharedRow.Step.WritesTime : SharedRow.Step → Prop
  | .editTimestamp _ => True
  | _ => False

namespace Row

/-- A row can be shown exactly if its point in time lies in the calendar. -/
theorem exists_shown_iff {r : Row} : (∃ text, r.shown = .ok text) ↔ r.timestamp.Dated := by
  rw [← Timestamp.exists_rfc3339_iff, shown]
  cases r.timestamp.rfc3339 <;> simp [Except.map]

/-- A new row is in the calendar if the clock is. -/
theorem exists_create {now : Double} {n : Int} (hnow : now.truncated = .ok n)
    (hn : -62135596800 ≤ n ∧ n ≤ 253402300799) :
    ∃ created, create now = .ok created ∧ created.timestamp.Dated := by
  obtain ⟨t, ht⟩ := Timestamp.exists_ofWholeSeconds_iff.2 (show -2 ^ 63 ≤ n ∧ n < 2 ^ 63 by omega)
  refine ⟨emptyAt t, ?_, (Timestamp.dated_ofWholeSeconds ht).2 hn⟩
  rw [create, hnow]
  exact Except.map_eq_ok_iff.2 ⟨t, ht, rfl⟩

theorem timestamp_store (r : Row) (field : String) (v : Value) (status : Option FieldStatus) :
    (r.store field v status).timestamp = r.timestamp := by
  rw [store, timestamp_storeStatus]
  rfl

theorem timestamp_set (r : Row) (field : String) (v status : Native) :
    (r.set field v status).1.timestamp = r.timestamp := by
  unfold Row.set
  split
  · rfl
  · split
    · rfl
    · exact r.timestamp_store field _ _

/-- Steps on the fields leave the point in time alone. -/
theorem timestamp_step (r : Row) {s : SharedRow.Step} (hs : ¬ s.WritesTime)
    (hset : ∀ v, s ≠ .setTimestamp v) :
    (r.step s).1.timestamp = r.timestamp := by
  cases s with
  | set field v status => exact r.timestamp_set field v status
  | setTimestamp v => exact absurd rfl (hset v)
  | copy source target =>
    simp only [step]
    split
    · exact r.timestamp_store target _ none
    · rfl
  | keep => rfl
  | editField field text =>
    simp only [step]
    split <;> rfl
  | editTimestamp seconds => exact absurd trivial hs
  | remove field => rfl

/-- A step that sets a value that is taken brings its point in time, and every other step keeps the
one there is. -/
theorem timestamp_step_cases (r : Row) {s : SharedRow.Step} (hs : ¬ s.WritesTime) :
    (∃ v t, s = .setTimestamp v ∧ (r.step s).1.timestamp = t ∧ (t.Dated ↔ v.Dated) ∧ v.Taken) ∨
      (r.step s).1.timestamp = r.timestamp ∧ ∀ v, s = .setTimestamp v → ¬ v.Taken := by
  by_cases hset : ∃ v, s = .setTimestamp v
  · obtain ⟨v, rfl⟩ := hset
    have hstep : (r.step (.setTimestamp v)).1 = (r.setTimestamp v).1 := rfl
    rw [hstep]
    rcases v.toTimestamp_cases with ⟨t, ht, hdated, htaken⟩ | ⟨⟨why, hwhy⟩, hrefused⟩
    · rw [setTimestamp_of_ok ht]
      exact .inl ⟨v, t, rfl, rfl, hdated, htaken⟩
    · rw [setTimestamp_of_error hwhy]
      refine .inr ⟨rfl, ?_⟩
      rintro _ ⟨⟩
      exact hrefused
  · have hother : ∀ v, s ≠ .setTimestamp v := fun v h => hset ⟨v, h⟩
    exact .inr ⟨timestamp_step r hs hother, fun v h => absurd h (hother v)⟩

/-- A step leaves the calendar exactly if it sets an unchecked value that lies out of it. -/
theorem dated_step {r : Row} (hr : r.timestamp.Dated) {s : SharedRow.Step} (hs : ¬ s.WritesTime) :
    (r.step s).1.timestamp.Dated ↔ ∀ v, s = .setTimestamp v → v.Unchecked → v.Dated := by
  rcases r.timestamp_step_cases hs with ⟨v, t, rfl, ht, hdated, htaken⟩ | ⟨hsame, hrefused⟩
  · rw [ht, hdated]
    constructor
    · rintro hv _ ⟨⟩ _
      exact hv
    · exact fun h => htaken.elim id (h v rfl)
  · rw [hsame]
    exact iff_of_true hr fun v hv hunchecked => absurd (.inr hunchecked) (hrefused v hv)

end Row

/-! ## Runs -/

namespace SharedRow

/-- Whether a run keeps a row in the calendar: throughout it the point in time lies there and the
row can be shown, and a value from elsewhere is refused. -/
structure KeepsTime (w : SharedRow) (steps : List Step) : Prop where
  dated : ∀ done, done <+: steps → (w.run done).current.timestamp.Dated
  shown : ∀ done, done <+: steps → ∃ text, (w.run done).current.shown = .ok text
  refused : ∀ done v rest, steps = done ++ .setTimestamp v :: rest → ¬ v.Dated →
    ∃ why, ((w.run done).setTimestamp v).2 = .error why

/-- A run stays in the calendar if no step leaves it. -/
theorem dated_run {w : SharedRow} (hw : w.Owns w.row) (hstart : w.current.timestamp.Dated)
    {steps : List Step} (hsteps : ∀ s ∈ steps, ¬ s.WritesTime)
    (hset : ∀ v, .setTimestamp v ∈ steps → v.Unchecked → v.Dated) :
    (w.run steps).current.timestamp.Dated := by
  induction steps generalizing w with
  | nil => exact hstart
  | cons s steps ih =>
    rw [List.forall_mem_cons] at hsteps
    have hstep : (w.step s).1.current = (w.current.step s).1 :=
      congrArg Prod.fst (current_step hw s)
    have hnext : (w.step s).1.current.timestamp.Dated := by
      rw [hstep, Row.dated_step hstart hsteps.1]
      rintro v rfl
      exact hset v List.mem_cons_self
    exact ih (owns_step hw s) hnext hsteps.2 fun v hv => hset v (List.mem_cons_of_mem s hv)

/-- A run keeps the point in time if no value is taken in it. -/
theorem timestamp_run {w : SharedRow} (hw : w.Owns w.row) {steps : List Step}
    (hsteps : ∀ s ∈ steps, ¬ s.WritesTime) (hset : ∀ v, .setTimestamp v ∈ steps → ¬ v.Taken) :
    (w.run steps).current.timestamp = w.current.timestamp := by
  induction steps generalizing w with
  | nil => rfl
  | cons s steps ih =>
    rw [List.forall_mem_cons] at hsteps
    have hstep : (w.step s).1.current = (w.current.step s).1 :=
      congrArg Prod.fst (current_step hw s)
    refine (ih (owns_step hw s) hsteps.2 fun v hv => hset v (List.mem_cons_of_mem s hv)).trans ?_
    rw [hstep]
    rcases w.current.timestamp_step_cases hsteps.1 with ⟨v, -, rfl, -, -, htaken⟩ | ⟨hsame, -⟩
    · exact absurd htaken (hset v List.mem_cons_self)
    · exact hsame

/-- Behind the last value that is taken a run is where that value is. -/
theorem dated_run_iff {w : SharedRow} (hw : w.Owns w.row) {v : Native} (htaken : v.Taken)
    {rest : List Step} (hsteps : ∀ s ∈ rest, ¬ s.WritesTime)
    (hrest : ∀ v', .setTimestamp v' ∈ rest → ¬ v'.Taken) :
    (w.run (.setTimestamp v :: rest)).current.timestamp.Dated ↔ v.Dated := by
  have hstep : (w.step (.setTimestamp v)).1.current = (w.current.step (.setTimestamp v)).1 :=
    congrArg Prod.fst (current_step hw (.setTimestamp v))
  have hlast : (w.run (.setTimestamp v :: rest)).current.timestamp =
      (w.step (.setTimestamp v)).1.current.timestamp :=
    timestamp_run (owns_step hw _) hsteps hrest
  rw [hlast, hstep]
  rcases w.current.timestamp_step_cases (s := .setTimestamp v) id
    with ⟨_, t, ⟨⟩, ht, hdated, -⟩ | ⟨-, hrefused⟩
  · rw [ht, hdated]
  · exact absurd htaken (hrefused v rfl)

theorem setTimestamp_refused_iff (w : SharedRow) (v : Native) :
    (∃ why, (w.setTimestamp v).2 = .error why) ↔ ¬ v.Taken := by
  rw [setTimestamp]
  rcases v.toTimestamp_cases with ⟨t, ht, -, htaken⟩ | ⟨⟨why, hwhy⟩, hrefused⟩
  · rw [ht]
    refine iff_of_false ?_ (not_not.2 htaken)
    rintro ⟨why, ⟨⟩⟩
  · rw [hwhy]
    exact iff_of_true ⟨why, rfl⟩ hrefused

theorem run_append (w : SharedRow) (done rest : List Step) :
    w.run (done ++ rest) = (w.run done).run rest :=
  List.foldl_append

/-- When the point in time of a row stays in the calendar.

A value is taken exactly if it is a point in time of the calendar or is unchecked, that is an
integer of 64 bits or a timestamp. A run from a new row whose clock is in the calendar stays there,
can be shown throughout and refuses every value from elsewhere exactly if no unchecked value from
elsewhere is set in it. And after the last value that is taken the row can be shown exactly if that
value lies in the calendar. -/
theorem keepsTime_iff {now : Double} {n : Int} (hnow : now.truncated = .ok n)
    (hn : -62135596800 ≤ n ∧ n ≤ 253402300799) {steps : List Step}
    (hsteps : ∀ s ∈ steps, ¬ s.WritesTime) :
    ∃ created, Row.create now = .ok created ∧
    (∀ (w : SharedRow) v, (∃ why, (w.setTimestamp v).2 = .error why) ↔ ¬ (v.Dated ∨ v.Unchecked)) ∧
    (KeepsTime (ofTimestamp created.timestamp) steps ↔
      ∀ v, .setTimestamp v ∈ steps → v.Unchecked → v.Dated) ∧
    ∀ done v rest, steps = done ++ .setTimestamp v :: rest → v.Taken →
      (∀ v', .setTimestamp v' ∈ rest → ¬ v'.Taken) →
      ((∃ text, ((ofTimestamp created.timestamp).run steps).current.shown = .ok text) ↔
        v.Dated) := by
  obtain ⟨created, hcreate, hstart⟩ := Row.exists_create hnow hn
  have howns := owns_ofTimestamp created.timestamp
  -- a time that is taken unchecked is the only way to a timestamp that has no text
  refine ⟨created, hcreate, setTimestamp_refused_iff,
    ⟨fun hkeeps v hv hunchecked => ?_, fun hset => ?_⟩, fun done v rest hsplit htaken hrest => ?_⟩
  · obtain ⟨done, rest, hsplit⟩ := List.append_of_mem hv
    by_contra hdated
    have hrefused := hkeeps.refused done v rest hsplit hdated
    exact (setTimestamp_refused_iff _ v).1 hrefused (.inr hunchecked)
  · have hdated (done : List Step) (hdone : done <+: steps) :
        ((ofTimestamp created.timestamp).run done).current.timestamp.Dated :=
      dated_run howns hstart (fun s hs => hsteps s (hdone.subset hs)) fun v hv =>
        hset v (hdone.subset hv)
    refine ⟨hdated, fun done hdone => Row.exists_shown_iff.2 (hdated done hdone), ?_⟩
    rintro done v rest rfl hv
    refine (setTimestamp_refused_iff _ v).2 (not_or.2 ⟨hv, fun hunchecked => hv ?_⟩)
    exact hset v (List.mem_append_right done List.mem_cons_self) hunchecked
  · subst hsplit
    rw [Row.exists_shown_iff, run_append]
    refine dated_run_iff (owns_run howns done) htaken (fun s hs => hsteps s ?_) hrest
    exact List.mem_append_right done (List.mem_cons_of_mem _ hs)

/-- A run that sets the last float of the calendar, and then the next one, which is refused. -/
theorem keepsTime_floats :
    let now : Double := ⟨0x41d954fc40000000⟩
    let steps : List Step := [.set "a" (.int 1) .none, .setTimestamp (.float ⟨0x424d7ffa20bfffff⟩),
      .setTimestamp (.float ⟨0x424d7ffa20c00000⟩)]
    now.truncated = .ok 1700000000 ∧ (∀ s ∈ steps, ¬ s.WritesTime) ∧
      ∃ created, Row.create now = .ok created ∧
        KeepsTime (ofTimestamp created.timestamp) steps := by
  intro now steps
  have hnow : now.truncated = .ok 1700000000 := by decide +kernel
  have hsteps : ∀ s ∈ steps, ¬ s.WritesTime := by
    simp [steps, Step.WritesTime]
  obtain ⟨created, hcreate, -, hkeeps, -⟩ := keepsTime_iff hnow (by decide) hsteps
  refine ⟨hnow, hsteps, created, hcreate, hkeeps.2 fun v hv hunchecked => ?_⟩
  simp only [steps, List.mem_cons, reduceCtorEq, Step.setTimestamp.injEq, false_or,
    List.not_mem_nil, or_false] at hv
  rcases hv with rfl | rfl <;> exact absurd hunchecked id

/-- Rows do not always stay in the calendar: the second after it is taken as an integer. -/
theorem keepsTime_end :
    ¬ ∀ now n created steps, now.truncated = .ok n → -62135596800 ≤ n → n ≤ 253402300799 →
      Row.create now = .ok created → (∀ s ∈ steps, ¬ s.WritesTime) →
      KeepsTime (ofTimestamp created.timestamp) steps := by
  intro h
  have hnow : (⟨0x41d954fc40000000⟩ : Double).truncated = .ok 1700000000 := by decide +kernel
  have hcreate : Row.create ⟨0x41d954fc40000000⟩ = .ok (Row.emptyAt (.ofSeconds 1700000000)) := by
    decide +kernel
  have hkeeps := h _ _ _ [.setTimestamp (.int 253402300800)] hnow (by decide) (by decide) hcreate
    (by simp [Step.WritesTime])
  obtain ⟨text, htext⟩ := hkeeps.shown _ (List.prefix_refl _)
  have hfails :
      ((ofTimestamp (.ofSeconds 1700000000)).run
      [.setTimestamp (.int 253402300800)]).current.shown =
      .error (.seconds 253402300800) := by decide +kernel
  cases hfails.symm.trans htext

end SharedRow

end OnlineFeatures
