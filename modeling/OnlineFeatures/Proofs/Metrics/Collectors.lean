import OnlineFeatures.Metrics.Rpc
import Mathlib.Data.List.Infix
import Mathlib.Data.List.Pairwise

/-!
# Who is answered to a request for a collector

What a collector claims depends on its type and name alone, its *family*. A registry in which no two
collectors share a name (`Registry.Exclusive`) stays so, grows at its end only, and a name once
claimed stays with its collector. A request is answered by the collector to which the name asked for
belongs afterwards (`Registry.getOrCreate_answer`), and by the same one ever after.

That one need not be what was asked for, since a family may be taken only in part: then nothing is
created, and the name itself may belong to nobody, or to a collector of another type or name. The
exact conditions are `Registry.answersType_iff` for the type of one answer, and
`Registry.throughout_answersFamily_iff` for type and name of all answers in a row: there the
families asked for must share no names unless they are equal.
-/

namespace OnlineFeatures

/-! ## Families -/

/-- A type and a name of collectors. -/
structure CollectorFamily where
  type : CollectorType
  name : String
  deriving DecidableEq, Repr

namespace CollectorFamily

/-- The names that the collectors of a family claim. -/
def claims (f : CollectorFamily) : List String := (Collector.mk f.type f.name [] []).claims

/-- Whether two families share no name. -/
def Apart (f g : CollectorFamily) : Prop := ∀ name ∈ f.claims, name ∉ g.claims

instance (f g : CollectorFamily) : Decidable (f.Apart g) :=
  inferInstanceAs (Decidable (∀ name ∈ f.claims, name ∉ g.claims))

/-- Whether two families, unless they are one, share no name. -/
def Compatible (f g : CollectorFamily) : Prop := f = g ∨ f.Apart g

instance (f g : CollectorFamily) : Decidable (f.Compatible g) :=
  inferInstanceAs (Decidable (f = g ∨ f.Apart g))

variable {f g : CollectorFamily}

theorem Apart.symm (h : f.Apart g) : g.Apart f := fun name hg hf => h name hf hg

theorem Compatible.symm (h : f.Compatible g) : g.Compatible f := h.imp Eq.symm Apart.symm

theorem name_mem_claims (f : CollectorFamily) : f.name ∈ f.claims := by
  obtain ⟨type, name⟩ := f
  cases type <;> exact List.mem_cons_self

end CollectorFamily

def Collector.family (c : Collector) : CollectorFamily := ⟨c.type, c.name⟩

theorem Collector.claims_family (c : Collector) : c.family.claims = c.claims := by
  obtain ⟨type, name, labels, bounds⟩ := c
  cases type <;> rfl

theorem dropEnding_cases (ending name : String) :
    dropEnding ending name = name ∨ name = dropEnding ending name ++ ending := by
  rw [dropEnding]
  split
  · rename_i h
    right
    have htail : ending.toList = name.toList.drop (name.toList.length - ending.toList.length) :=
      h.2.symm
    rw [← String.toList_inj, String.toList_append, String.toList_ofList]
    exact (List.take_append_drop _ _).symm.trans (congrArg _ htail.symm)
  · exact .inl rfl

namespace CollectorRequest

def family (r : CollectorRequest) : CollectorFamily := ⟨r.type, r.baseName⟩

/-- The bounds of a request, or the default ones. -/
def requestedBounds (r : CollectorRequest) : List Double :=
  match r.bounds with
  | some (b :: bs) => b :: bs
  | _ => defaultBounds

/-- Whether the names, and for a histogram the bounds, of a request are such that a collector can
have them. -/
structure Valid (r : CollectorRequest) : Prop where
  name : r.baseName ≠ ""
  labels : ∀ label ∈ r.labels, labelAllowed r.type label = true
  bounds : r.type = .histogram →
    boundsOrdered r.requestedBounds = true ∧ 2 ≤ (closeBounds r.requestedBounds).length

instance (r : CollectorRequest) : Decidable r.Valid :=
  decidable_of_iff
    (r.baseName ≠ "" ∧ (∀ label ∈ r.labels, labelAllowed r.type label = true) ∧
      (r.type = .histogram →
        boundsOrdered r.requestedBounds = true ∧ 2 ≤ (closeBounds r.requestedBounds).length))
    ⟨fun h => ⟨h.1, h.2.1, h.2.2⟩, fun h => ⟨h.name, h.labels, h.bounds⟩⟩

theorem collector?_eq (r : CollectorRequest) :
    r.collector? =
      if r.baseName = "" ∨ !r.labels.all (labelAllowed r.type) then none
      else
        match r.type with
        | .counter => some ⟨.counter, r.baseName, r.labels, []⟩
        | .histogram =>
          if boundsOrdered r.requestedBounds ∧ 2 ≤ (closeBounds r.requestedBounds).length then
            some ⟨.histogram, r.baseName, r.labels, closeBounds r.requestedBounds⟩
          else none :=
  rfl

theorem collector?_eq_some {r : CollectorRequest} {c : Collector} (h : r.collector? = some c) :
    r.Valid ∧ c.family = r.family := by
  rw [collector?_eq] at h
  split at h
  · cases h
  · rename_i hnames
    rw [not_or, Bool.not_eq_true', Bool.not_eq_false, List.all_eq_true] at hnames
    cases htype : r.type with
    | counter =>
      simp only [htype] at h
      obtain rfl := Option.some.inj h
      exact ⟨⟨hnames.1, hnames.2, by simp [htype]⟩, by rw [family, htype]; rfl⟩
    | histogram =>
      simp only [htype] at h
      split at h
      · rename_i hbounds
        obtain rfl := Option.some.inj h
        exact ⟨⟨hnames.1, hnames.2, fun _ => hbounds⟩, by rw [family, htype]; rfl⟩
      · cases h

theorem Valid.exists_collector {r : CollectorRequest} (h : r.Valid) :
    ∃ c, r.collector? = some c := by
  rw [collector?_eq, if_neg (by simpa [h.name] using h.labels)]
  cases htype : r.type with
  | counter => exact ⟨_, rfl⟩
  | histogram => exact ⟨_, if_pos (h.bounds htype)⟩

/-- The name asked for is one of those that are claimed. -/
theorem name_mem_claims (r : CollectorRequest) : r.name ∈ r.family.claims := by
  cases htype : r.type with
  | histogram =>
    have hname : r.family.name = r.name := by simp [family, baseName, htype]
    exact hname ▸ r.family.name_mem_claims
  | counter =>
    have hname : r.family.name = dropEnding "_total" r.name := by simp [family, baseName, htype]
    obtain hkept | hdropped := dropEnding_cases "_total" r.name
    · exact hkept ▸ hname ▸ r.family.name_mem_claims
    · rw [CollectorFamily.claims, hname, family, htype]
      exact List.mem_cons_of_mem _ (hdropped ▸ List.mem_cons_self)

end CollectorRequest

/-! ## One request -/

namespace Registry

variable {g : Registry} {name : String} {k : Nat}

/-- Whether no two registered collectors share a name. -/
def Exclusive (g : Registry) : Prop := g.collectors.Pairwise fun c d => c.family.Apart d.family

/-- Whether a collector can be registered for a request. -/
def Admits (g : Registry) (r : CollectorRequest) : Prop :=
  r.Valid ∧ ∀ d ∈ g.collectors, r.family.Apart d.family

theorem owner?_eq_none_iff : g.owner? name = none ↔ ∀ c ∈ g.collectors, name ∉ c.claims := by
  simp [owner?, List.findIdx?_eq_none_iff]

theorem Exclusive.eq_of_claims (hg : g.Exclusive) {i j : Nat} {c d : Collector}
    (hc : g.collectors[i]? = some c) (hd : g.collectors[j]? = some d) (hname : name ∈ c.claims)
    (hname' : name ∈ d.claims) : i = j := by
  rw [← c.claims_family] at hname
  rw [← d.claims_family] at hname'
  obtain ⟨hi, rfl⟩ := List.getElem?_eq_some_iff.1 hc
  obtain ⟨hj, rfl⟩ := List.getElem?_eq_some_iff.1 hd
  obtain hij | hij | hij := Nat.lt_trichotomy i j
  · exact absurd hname' (List.pairwise_iff_getElem.1 hg i j hi hj hij name hname)
  · exact hij
  · exact absurd hname (List.pairwise_iff_getElem.1 hg j i hj hi hij name hname')

theorem Exclusive.compatible (hg : g.Exclusive) {c d : Collector} (hc : c ∈ g.collectors)
    (hd : d ∈ g.collectors) : c.family.Compatible d.family := by
  have hpairs : g.collectors.Pairwise fun c d => c.family.Compatible d.family :=
    List.Pairwise.imp Or.inr hg
  exact hpairs.forall_of_forall_of_flip (fun _ _ => .inl rfl) (hpairs.imp fun h => h.symm) hc hd

theorem owner?_eq_some_iff (hg : g.Exclusive) :
    g.owner? name = some k ↔ ∃ c, g.collectors[k]? = some c ∧ name ∈ c.claims := by
  constructor
  · intro h
    obtain ⟨hk, hclaims, -⟩ := List.findIdx?_eq_some_iff_getElem.1 h
    exact ⟨_, List.getElem?_eq_getElem hk, of_decide_eq_true hclaims⟩
  · rintro ⟨c, hc, hname⟩
    cases howner : g.owner? name with
    | none => exact absurd hname (owner?_eq_none_iff.1 howner c (List.mem_of_getElem? hc))
    | some i =>
      obtain ⟨hi, hclaims, -⟩ := List.findIdx?_eq_some_iff_getElem.1 howner
      rw [hg.eq_of_claims (List.getElem?_eq_getElem hi) hc (of_decide_eq_true hclaims) hname]

theorem isFree_iff {c : Collector} :
    g.isFree c = true ↔ ∀ d ∈ g.collectors, c.family.Apart d.family := by
  simp only [isFree, List.all_eq_true, Option.isNone_iff_eq_none, owner?_eq_none_iff,
    CollectorFamily.Apart, Collector.claims_family]
  exact ⟨fun h d hd name hname => h name hname d hd, fun h name hname d hd => h d hd name hname⟩

/-- A request registers a collector of its family at the end, or changes nothing. -/
theorem getOrCreate_cases (g : Registry) (r : CollectorRequest) :
    (∃ c, c.family = r.family ∧ g.Admits r ∧
      g.getOrCreate r = (⟨g.collectors ++ [c]⟩, some g.collectors.length)) ∨
    (¬ g.Admits r ∧ g.getOrCreate r = (g, g.owner? r.name)) := by
  rw [getOrCreate]
  cases hc : r.collector? with
  | none =>
    refine .inr ⟨fun h => ?_, rfl⟩
    obtain ⟨c, hc'⟩ := h.1.exists_collector
    cases hc.symm.trans hc'
  | some c =>
    obtain ⟨hvalid, hfamily⟩ := CollectorRequest.collector?_eq_some hc
    by_cases hfree : g.isFree c = true
    · refine .inl ⟨c, hfamily, ⟨hvalid, hfamily ▸ isFree_iff.1 hfree⟩, ?_⟩
      rw [Option.bind_some, register?, if_pos hfree]
    · refine .inr ⟨fun h => hfree (isFree_iff.2 (hfamily ▸ h.2)), ?_⟩
      rw [Option.bind_some, register?, if_neg hfree]

theorem prefix_getOrCreate (g : Registry) (r : CollectorRequest) :
    g.collectors <+: (g.getOrCreate r).1.collectors := by
  obtain ⟨c, -, -, h⟩ | ⟨-, h⟩ := g.getOrCreate_cases r <;> rw [h]
  exact List.prefix_append _ _

theorem Exclusive.getOrCreate (hg : g.Exclusive) (r : CollectorRequest) :
    (g.getOrCreate r).1.Exclusive := by
  obtain ⟨c, hfamily, hadmits, h⟩ | ⟨-, h⟩ := g.getOrCreate_cases r <;> rw [h]
  · refine List.pairwise_append.2 ⟨hg, List.pairwise_singleton _ _, fun d hd c' hc' => ?_⟩
    obtain rfl := List.mem_singleton.1 hc'
    exact (hfamily ▸ hadmits.2 d hd).symm
  · exact hg

/-- A name that is claimed stays with its collector. -/
theorem owner?_getOrCreate (r : CollectorRequest) (h : g.owner? name = some k) :
    (g.getOrCreate r).1.owner? name = some k := by
  obtain ⟨c, -, -, hr⟩ | ⟨-, hr⟩ := g.getOrCreate_cases r <;> rw [hr]
  · rw [owner?] at h ⊢
    rw [List.findIdx?_append, h]
    rfl
  · exact h

/-- The answer to a request is the collector to which the name asked for belongs then. -/
theorem getOrCreate_answer (g : Registry) (r : CollectorRequest) :
    (g.getOrCreate r).2 = (g.getOrCreate r).1.owner? r.name := by
  obtain ⟨c, hfamily, hadmits, h⟩ | ⟨-, h⟩ := g.getOrCreate_cases r <;> rw [h]
  have hnone : g.owner? r.name = none := owner?_eq_none_iff.2 fun d hd hname =>
    hadmits.2 d hd r.name r.name_mem_claims (d.claims_family ▸ hname)
  have hclaims : r.name ∈ c.claims := c.claims_family ▸ hfamily ▸ r.name_mem_claims
  rw [owner?] at hnone
  simp [owner?, List.findIdx?_append, hnone, hclaims]

theorem getOrCreate_of_owner? {r : CollectorRequest} (h : g.owner? r.name = some k) :
    (g.getOrCreate r).2 = some k :=
  (g.getOrCreate_answer r).trans (owner?_getOrCreate r h)

/-! ## What the answer is -/

/-- The collector with which a request is answered. -/
def answer? (g : Registry) (r : CollectorRequest) : Option Collector :=
  (g.getOrCreate r).2.bind fun k => (g.getOrCreate r).1.collectors[k]?

/-- Whether a request is answered with a collector of its type. -/
def AnswersType (g : Registry) (r : CollectorRequest) : Prop :=
  ∃ c, g.answer? r = some c ∧ c.type = r.type

/-- Whether a request is answered with a collector of its type and name. -/
def AnswersFamily (g : Registry) (r : CollectorRequest) : Prop :=
  ∃ c, g.answer? r = some c ∧ c.family = r.family

theorem answer?_eq_some_iff (hg : g.Exclusive) {r : CollectorRequest} {c : Collector} :
    g.answer? r = some c ↔ c ∈ (g.getOrCreate r).1.collectors ∧ r.name ∈ c.claims := by
  rw [answer?, getOrCreate_answer, Option.bind_eq_some_iff]
  constructor
  · rintro ⟨k, hk, hc⟩
    obtain ⟨d, hd, hname⟩ := (owner?_eq_some_iff (hg.getOrCreate r)).1 hk
    obtain rfl := Option.some.inj (hc.symm.trans hd)
    exact ⟨List.mem_of_getElem? hc, hname⟩
  · rintro ⟨hc, hname⟩
    obtain ⟨k, hk⟩ := List.mem_iff_getElem?.1 hc
    exact ⟨k, (owner?_eq_some_iff (hg.getOrCreate r)).2 ⟨c, hk, hname⟩, hk⟩

theorem getOrCreate_eq_none_iff {r : CollectorRequest} :
    (g.getOrCreate r).2 = none ↔ ¬ g.Admits r ∧ ∀ d ∈ g.collectors, r.name ∉ d.claims := by
  obtain ⟨c, -, hadmits, h⟩ | ⟨hadmits, h⟩ := g.getOrCreate_cases r <;> rw [h]
  · simp [hadmits]
  · simp [hadmits, owner?_eq_none_iff]

theorem answersType_iff (hg : g.Exclusive) {r : CollectorRequest} :
    g.AnswersType r ↔ g.Admits r ∨ ∃ d ∈ g.collectors, r.name ∈ d.claims ∧ d.type = r.type := by
  simp only [AnswersType, answer?_eq_some_iff hg]
  obtain ⟨c, hfamily, hadmits, h⟩ | ⟨hadmits, h⟩ := g.getOrCreate_cases r <;> rw [h]
  · refine iff_of_true ⟨c, ⟨List.mem_append_right _ List.mem_cons_self, ?_⟩, ?_⟩ (.inl hadmits)
    · exact c.claims_family ▸ hfamily ▸ r.name_mem_claims
    · exact congrArg CollectorFamily.type hfamily
  · simp [hadmits, and_assoc]

theorem answersFamily_iff (hg : g.Exclusive) {r : CollectorRequest} (hvalid : r.Valid) :
    g.AnswersFamily r ↔ ∀ d ∈ g.collectors, r.family.Compatible d.family := by
  simp only [AnswersFamily, answer?_eq_some_iff hg]
  obtain ⟨c, hfamily, hadmits, h⟩ | ⟨hadmits, h⟩ := g.getOrCreate_cases r <;> rw [h]
  · refine iff_of_true ⟨c, ⟨List.mem_append_right _ List.mem_cons_self, ?_⟩, hfamily⟩
      fun d hd => .inr (hadmits.2 d hd)
    exact c.claims_family ▸ hfamily ▸ r.name_mem_claims
  · constructor
    · rintro ⟨c, ⟨hc, -⟩, hfamily⟩ d hd
      exact hfamily ▸ hg.compatible hc hd
    · intro hcompatible
      -- A family that is compatible with all, but not apart from all, is already there.
      have hclash : ∃ d ∈ g.collectors, ¬ r.family.Apart d.family := by
        by_contra hnone
        exact hadmits ⟨hvalid, by simpa using hnone⟩
      obtain ⟨d, hd, hclash⟩ := hclash
      have hfamily : r.family = d.family := (hcompatible d hd).resolve_right hclash
      exact ⟨d, ⟨hd, d.claims_family ▸ hfamily ▸ r.name_mem_claims⟩, hfamily.symm⟩

/-! ## Requests in a row -/

/-- The registry after requests. -/
def after (g : Registry) (rs : List CollectorRequest) : Registry :=
  rs.foldl (fun g r => (g.getOrCreate r).1) g

/-- Whether something holds of each request and the registry at its time. -/
def Throughout (P : Registry → CollectorRequest → Prop) (g : Registry)
    (rs : List CollectorRequest) : Prop :=
  ∀ before r rest, rs = before ++ r :: rest → P (g.after before) r

theorem throughout_cons_iff {P : Registry → CollectorRequest → Prop} {r : CollectorRequest}
    {rs : List CollectorRequest} :
    g.Throughout P (r :: rs) ↔ P g r ∧ (g.getOrCreate r).1.Throughout P rs := by
  constructor
  · intro h
    refine ⟨h [] r rs rfl, fun before s rest hrs => h (r :: before) s rest ?_⟩
    rw [hrs, List.cons_append]
  · rintro ⟨hr, hrs⟩ before s rest hsplit
    cases before with
    | nil =>
      obtain ⟨rfl, -⟩ := List.cons.inj hsplit
      exact hr
    | cons r' before =>
      obtain ⟨rfl, htail⟩ := List.cons.inj hsplit
      exact hrs before s rest htail

/-- The registry as the program starts with it is what two requests leave. -/
theorem initial_eq_after :
    initial = empty.after
      [⟨.counter, requestsName, ["method", "status"], none⟩,
       ⟨.histogram, latencyName, ["method"],
        some ([1, 5, 10, 25, 50, 100, 250, 500, 1000, 2500, 5000].map thousandths)⟩] := by
  decide +kernel

theorem Exclusive.after (hg : g.Exclusive) (rs : List CollectorRequest) :
    (g.after rs).Exclusive := by
  induction rs generalizing g with
  | nil => exact hg
  | cons r rs ih => exact ih (hg.getOrCreate r)

theorem exclusive_initial : initial.Exclusive := by
  rw [initial_eq_after]
  exact Exclusive.after .nil _

theorem owner?_after (rs : List CollectorRequest) (h : g.owner? name = some k) :
    (g.after rs).owner? name = some k := by
  induction rs generalizing g with
  | nil => exact h
  | cons r rs ih => exact ih (owner?_getOrCreate r h)

/-- A request that is answered in its family leaves that family registered, and else what was. -/
theorem AnswersFamily.forall_family_iff (hg : g.Exclusive) {r : CollectorRequest}
    (h : g.AnswersFamily r) {P : CollectorFamily → Prop} :
    (∀ d ∈ (g.getOrCreate r).1.collectors, P d.family) ↔
      P r.family ∧ ∀ d ∈ g.collectors, P d.family := by
  obtain ⟨c, hc, hfamily⟩ := h
  have hmem := ((answer?_eq_some_iff hg).1 hc).1
  obtain ⟨c', hfamily', -, h⟩ | ⟨-, h⟩ := g.getOrCreate_cases r <;> rw [h] at hmem ⊢
  · simp [or_imp, forall_and, hfamily', and_comm]
  · exact ⟨fun hall => ⟨hfamily ▸ hall c hmem, hall⟩, And.right⟩

/-- All answers are of the families asked for if and only if no two families, registered or asked
for, are different and share a name. -/
theorem throughout_answersFamily_iff (hg : g.Exclusive) {rs : List CollectorRequest}
    (hvalid : ∀ r ∈ rs, r.Valid) :
    g.Throughout AnswersFamily rs ↔
      rs.Pairwise (fun r s => r.family.Compatible s.family) ∧
        ∀ r ∈ rs, ∀ d ∈ g.collectors, r.family.Compatible d.family := by
  induction rs generalizing g with
  | nil => simp [Throughout]
  | cons r rs ih =>
    rw [List.forall_mem_cons] at hvalid
    rw [throughout_cons_iff, List.pairwise_cons, List.forall_mem_cons,
      ← answersFamily_iff hg hvalid.1, ih (hg.getOrCreate r) hvalid.2]
    by_cases h : g.AnswersFamily r
    · -- What the rest meets is what is registered before, and the family of the first request.
      simp only [h.forall_family_iff hg, h, true_and, forall_and]
      have hsymm : (∀ s ∈ rs, s.family.Compatible r.family) ↔
          ∀ s ∈ rs, r.family.Compatible s.family :=
        forall₂_congr fun s _ => ⟨CollectorFamily.Compatible.symm, CollectorFamily.Compatible.symm⟩
      rw [hsymm, and_left_comm, and_assoc]
    · simp [h]

/-- What a request is answered with, and what that leaves for the requests to come. -/
structure Answered (g : Registry) (r : CollectorRequest) : Prop where
  grows : g.collectors <+: (g.getOrCreate r).1.collectors
  keeps : ∀ name k, g.owner? name = some k → (g.getOrCreate r).1.owner? name = some k
  answer : (g.getOrCreate r).2 = (g.getOrCreate r).1.owner? r.name
  /-- Whatever is asked for in between, the name is answered with the same collector from then
  on. -/
  repeats : ∀ k, (g.getOrCreate r).2 = some k → ∀ between s, s.name = r.name →
    (((g.getOrCreate r).1.after between).getOrCreate s).2 = some k
  none_iff : (g.getOrCreate r).2 = none ↔ ¬ g.Admits r ∧ ∀ d ∈ g.collectors, r.name ∉ d.claims
  type_iff : g.AnswersType r ↔ g.Admits r ∨ ∃ d ∈ g.collectors, r.name ∈ d.claims ∧ d.type = r.type

theorem answered (hg : g.Exclusive) (r : CollectorRequest) : g.Answered r where
  grows := g.prefix_getOrCreate r
  keeps _ _ h := owner?_getOrCreate r h
  answer := g.getOrCreate_answer r
  repeats k h between s hname := by
    have howner : (g.getOrCreate r).1.owner? s.name = some k := by
      rw [hname, ← getOrCreate_answer, h]
    exact getOrCreate_of_owner? (owner?_after between howner)
  none_iff := getOrCreate_eq_none_iff
  type_iff := answersType_iff hg

/-- What requests are answered with, one after another, from the registry of the program and from
any other in which no two collectors share a name. Each answer is the collector to which the name
asked for belongs, and no name changes hands. If all requests are valid, then all answers are of the
type and name asked for exactly where no two families, of the requests and of the collectors that
are there from the start, overlap in part. -/
theorem requests_answered (rs : List CollectorRequest) :
    initial.Exclusive ∧ ∀ g : Registry, g.Exclusive →
      g.Throughout Answered rs ∧
        ((∀ r ∈ rs, r.Valid) →
          (g.Throughout AnswersFamily rs ↔
            rs.Pairwise (fun r s => r.family.Compatible s.family) ∧
              ∀ r ∈ rs, ∀ d ∈ g.collectors, r.family.Compatible d.family)) := by
  refine ⟨exclusive_initial, fun g hg => ⟨?_, throughout_answersFamily_iff hg⟩⟩
  intro before r _ _
  exact answered (hg.after before) r

theorem requests_answered_jobs :
    initial.Throughout AnswersFamily
      [⟨.counter, "jobs_total", ["queue"], none⟩, ⟨.histogram, "jobs_seconds", ["queue"], none⟩,
        ⟨.counter, "jobs", [], none⟩] := by
  obtain ⟨hinitial, hall⟩ := requests_answered
    [⟨.counter, "jobs_total", ["queue"], none⟩, ⟨.histogram, "jobs_seconds", ["queue"], none⟩,
      ⟨.counter, "jobs", [], none⟩]
  exact ((hall initial hinitial).2 (by decide +kernel)).2 (by decide +kernel)

/-- A counter takes a name of a family to come, and nothing can be answered for that family; and a
histogram that is asked for under the name of a counter is answered with the counter. -/
theorem names_taken_in_part :
    let created : CollectorRequest := ⟨.counter, "jobs_created", [], none⟩
    let jobs : CollectorRequest := ⟨.counter, "jobs", [], none⟩
    let timed : CollectorRequest := ⟨.histogram, "jobs_created", [], none⟩
    created.Valid ∧ jobs.Valid ∧ timed.Valid ∧
      ((initial.after [created]).getOrCreate jobs).2 = none ∧
      (initial.after [created]).answer? timed = some ⟨.counter, "jobs_created", [], []⟩ := by
  decide +kernel

end Registry

end OnlineFeatures
