import OnlineFeatures.Metrics.Rpc
import OnlineFeatures.Proofs.Number.Difference
import OnlineFeatures.Proofs.Wire.Maps

/-!
# What recording adds

To record a call adds one to the count of its method and ending and to no other
(`RpcMetrics.countOf_record`), and one to the durations of its method and of no other
(`RpcMetrics.latencyCount_record`). The latter holds of durations that are numbers, since the last
bucket of a histogram takes all of them, and of histograms that have all of their buckets, which
every histogram has.
-/

namespace OnlineFeatures

theorem lookup_alterEntry {κ α : Type} [BEq κ] [LawfulBEq κ] [DecidableEq κ]
    (key k : κ) (initial : α) (f : α → α) (l : List (κ × α)) :
    (alterEntry key initial f l).lookup k =
      if k = key then some (f ((l.lookup k).getD initial)) else l.lookup k := by
  induction l with
  | nil => rw [alterEntry, lookup_cons_ite]; rfl
  | cons p l ih =>
    obtain ⟨key', a⟩ := p
    rw [alterEntry]
    by_cases hkey : key' = key
    · subst hkey
      rw [if_pos rfl, lookup_cons_ite, lookup_cons_ite]
      by_cases hk : k = key'
      · simp [hk]
      · simp [hk]
    · rw [if_neg hkey, lookup_cons_ite, lookup_cons_ite, ih]
      by_cases hk : k = key'
      · subst hk
        simp [hkey]
      · simp [hk]

/-! ## Histograms -/

namespace Histogram

/-- Whether a histogram has a bucket for every bound. -/
def Complete (h : Histogram) : Prop := h.counts.length = latencyBounds.length

theorem complete_empty : empty.Complete := by
  rw [Complete, empty, List.length_map]

theorem length_countIn (x : Double) (bounds : List Double) (counts : List Nat) :
    (countIn x bounds counts).length = counts.length := by
  induction bounds generalizing counts with
  | nil => rfl
  | cons b bounds ih =>
    cases counts with
    | nil => rfl
    | cons n counts =>
      rw [countIn]
      split
      · rfl
      · simp [ih]

theorem Complete.observe {h : Histogram} (hcomplete : h.Complete) (x : Double) :
    (h.observe x).Complete :=
  (length_countIn x latencyBounds h.counts).trans hcomplete

theorem total_eq_sum (h : Histogram) : h.total = h.counts.sum :=
  List.sum_eq_foldl.symm

/-- A duration that some bound is not below falls into one bucket. -/
theorem sum_countIn {x : Double} {bounds : List Double} {counts : List Nat}
    (hlength : counts.length = bounds.length) (hbound : ∃ b ∈ bounds, x.le b = true) :
    (countIn x bounds counts).sum = counts.sum + 1 := by
  induction bounds generalizing counts with
  | nil => simp at hbound
  | cons b bounds ih =>
    cases counts with
    | nil => simp at hlength
    | cons n counts =>
      rw [countIn]
      by_cases hb : x.le b = true
      · rw [if_pos hb, List.sum_cons, List.sum_cons]
        omega
      · have hrest : ∃ b ∈ bounds, x.le b = true := by simpa [hb] using hbound
        rw [if_neg hb, List.sum_cons, List.sum_cons, ih (by simpa using hlength) hrest]
        omega

theorem exists_bound {x : Double} (hx : x.isNaN = false) : ∃ b ∈ latencyBounds, x.le b = true :=
  ⟨.infinity false, by decide, Double.le_infinity hx⟩

theorem total_observe {h : Histogram} (hcomplete : h.Complete) {x : Double} (hx : x.isNaN = false) :
    (h.observe x).total = h.total + 1 := by
  rw [total_eq_sum, total_eq_sum]
  exact sum_countIn hcomplete (exists_bound hx)

end Histogram

/-! ## Samples -/

namespace RpcMetrics

/-- Whether all histograms are complete. -/
def Complete (m : RpcMetrics) : Prop :=
  ∀ method h, m.latency.lookup method = some h → h.Complete

theorem complete_empty : empty.Complete := by
  intro method h hmem
  simp [empty] at hmem

theorem Complete.record {m : RpcMetrics} (hcomplete : m.Complete) (method : String)
    (status : CallStatus) (duration : Double) : (m.record method status duration).Complete := by
  intro name h hlookup
  rw [RpcMetrics.record, RpcMetrics.observe, lookup_alterEntry] at hlookup
  split at hlookup
  · obtain rfl := Option.some.inj hlookup
    refine Histogram.Complete.observe ?_ duration
    change ((m.latency.lookup name).getD .empty).Complete
    cases hname : m.latency.lookup name with
    | none => exact Histogram.complete_empty
    | some h => exact hcomplete name h hname
  · exact hcomplete name h hlookup

theorem countOf_record (m : RpcMetrics) (method : String) (status : CallStatus) (duration : Double)
    (name : String) (ending : CallStatus) :
    (m.record method status duration).countOf name ending =
      m.countOf name ending + if method = name ∧ status = ending then 1 else 0 := by
  rw [countOf, record, observe, count, lookup_alterEntry]
  by_cases h : method = name ∧ status = ending
  · rw [if_pos (Prod.ext h.1.symm h.2.symm), if_pos h]
    rfl
  · rw [if_neg fun heq => h ((Prod.mk.inj heq).imp Eq.symm Eq.symm), if_neg h]
    rfl

theorem latencyCount_record {m : RpcMetrics} (hcomplete : m.Complete) (method : String)
    (status : CallStatus) {duration : Double} (hduration : duration.isNaN = false) (name : String) :
    (m.record method status duration).latencyCount name =
      m.latencyCount name + if method = name then 1 else 0 := by
  rw [latencyCount, record, observe, lookup_alterEntry]
  by_cases h : method = name
  · rw [if_pos h.symm, if_pos h]
    change (((m.latency.lookup name).getD .empty).observe duration).total = _
    rw [latencyCount]
    cases hname : m.latency.lookup name with
    | none => exact Histogram.total_observe Histogram.complete_empty hduration
    | some h => exact Histogram.total_observe (hcomplete name h hname) hduration
  · rw [if_neg fun heq => h heq.symm, if_neg h]
    rfl

/-- To track a call is to record it, unless recording is switched off. -/
theorem track_of_working (m : RpcMetrics) (enabled : Bool) (c : TimedCall) :
    m.track enabled ⟨false, false⟩ c =
      (if enabled then m.record c.method c.status (c.stop.sub c.start) else m, []) := by
  cases enabled <;> rfl

end RpcMetrics

end OnlineFeatures
