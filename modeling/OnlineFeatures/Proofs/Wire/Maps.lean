import OnlineFeatures.Wire.FieldMap

/-!
# Maps by their look-ups

A map is determined by what its keys look up (`FieldMap.ext_find?`), and a sequence of insertions by
the last value that each key was given (`FieldMap.find?_ofList`). So it does not matter in which
order entries come, as long as each key keeps its last value (`FieldMap.ofList_congr`): the entries
of a map make it up again in any order (`FieldMap.ofList_perm_entries`).
-/

namespace OnlineFeatures

/-! ## Look-ups in lists of entries -/

variable {α : Type}

theorem lookup_cons_ite {κ : Type} [BEq κ] [LawfulBEq κ] [DecidableEq κ] (k key : κ) (a : α)
    (l : List (κ × α)) : ((key, a) :: l).lookup k = if k = key then some a else l.lookup k := by
  rw [List.lookup_cons]
  by_cases h : k = key
  · simp [h]
  · simp [h, beq_eq_false_iff_ne.2 h]

theorem mem_of_lookup {l : List (String × α)} {key : String} {a : α} (h : l.lookup key = some a) :
    (key, a) ∈ l := by
  obtain ⟨before, after, rfl, -⟩ := List.lookup_eq_some_iff.1 h
  simp

theorem lookup_eq_some_iff_mem {l : List (String × α)} (h : (l.map (·.1)).Nodup) {key : String}
    {a : α} : l.lookup key = some a ↔ (key, a) ∈ l := by
  induction l with
  | nil => simp
  | cons p l ih =>
    obtain ⟨k, b⟩ := p
    rw [List.map_cons, List.nodup_cons] at h
    rw [lookup_cons_ite, List.mem_cons]
    by_cases hk : key = k
    · subst hk
      have hnot : (key, a) ∉ l := fun hmem => h.1 (List.mem_map.2 ⟨_, hmem, rfl⟩)
      simp [hnot, eq_comm]
    · simp [hk, ih h.2]

theorem lookup_perm {l₁ l₂ : List (String × α)} (h : l₁.Perm l₂) (hnodup : (l₁.map (·.1)).Nodup)
    (key : String) : l₁.lookup key = l₂.lookup key := by
  apply Option.ext
  intro a
  rw [lookup_eq_some_iff_mem hnodup, lookup_eq_some_iff_mem ((h.map _).nodup hnodup), h.mem_iff]

theorem lookup_reverse {l : List (String × α)} (h : (l.map (·.1)).Nodup) (key : String) :
    l.reverse.lookup key = l.lookup key :=
  (lookup_perm l.reverse_perm.symm h key).symm

namespace FieldMap

theorem nodup_of_sorted {l : List (String × α)} (h : l.Pairwise (·.1 < ·.1)) :
    (l.map (·.1)).Nodup := by
  refine List.pairwise_map.2 (h.imp ?_)
  intro p q hlt heq
  rw [heq] at hlt
  exact String.lt_irrefl _ hlt

theorem nodup_keys (m : FieldMap α) : (m.entries.map (·.1)).Nodup :=
  nodup_of_sorted m.sorted

/-! ## Insertion -/

theorem lookup_insertEntry (key k : String) (a : α) (l : List (String × α)) :
    (insertEntry key a l).lookup k = if k = key then some a else l.lookup k := by
  induction l with
  | nil => by_cases h : k = key <;> simp [insertEntry, h]
  | cons p l ih =>
    obtain ⟨k', b⟩ := p
    rw [insertEntry]
    split
    · rw [lookup_cons_ite]
    · split
      · rename_i heq
        rw [lookup_cons_ite, lookup_cons_ite, ← heq]
        by_cases h : k = key <;> simp [h]
      · rename_i hne
        rw [lookup_cons_ite, lookup_cons_ite, ih]
        by_cases h : k = key
        · subst h
          simp [hne]
        · simp [h]

theorem find?_insert (m : FieldMap α) (key k : String) (a : α) :
    (m.insert key a).find? k = if k = key then some a else m.find? k :=
  lookup_insertEntry key k a m.entries

theorem find?_foldl_insert (l : List (String × α)) (m : FieldMap α) (k : String) :
    (l.foldl (fun m (key, a) => m.insert key a) m).find? k =
      (l.reverse.lookup k).or (m.find? k) := by
  induction l generalizing m with
  | nil => simp
  | cons p l ih =>
    obtain ⟨key, a⟩ := p
    rw [List.foldl_cons, ih, find?_insert, List.reverse_cons, List.lookup_append,
      Option.or_assoc, lookup_cons_ite]
    by_cases h : k = key <;> simp [h]

/-- After insertions a key has the last value that it was given. -/
theorem find?_ofList (l : List (String × α)) (k : String) :
    (ofList l).find? k = l.reverse.lookup k := by
  rw [ofList, find?_foldl_insert]
  simp [find?, empty]

/-! ## Extensionality -/

/-- The least key of one of two sorted lists that look up the same is not behind that of the
other. -/
theorem head_le_of_lookup_eq {k₁ k₂ : String} {a₁ a₂ : α} {l₁ l₂ : List (String × α)}
    (h₂ : ((k₂, a₂) :: l₂).Pairwise (·.1 < ·.1))
    (h : ∀ k, ((k₁, a₁) :: l₁).lookup k = ((k₂, a₂) :: l₂).lookup k) : ¬ k₁ < k₂ := by
  intro hlt
  have hk₁ := (h k₁).symm
  rw [List.lookup_cons_self, lookup_eq_some_iff_mem (nodup_of_sorted h₂)] at hk₁
  rcases List.mem_cons.1 hk₁ with heq | hmem
  · exact String.lt_irrefl _ ((Prod.mk.inj heq).1 ▸ hlt)
  · exact String.lt_irrefl _ (String.lt_trans hlt (List.rel_of_pairwise_cons h₂ hmem))

theorem eq_of_lookup_eq {l₁ l₂ : List (String × α)} (h₁ : l₁.Pairwise (·.1 < ·.1))
    (h₂ : l₂.Pairwise (·.1 < ·.1)) (h : ∀ k, l₁.lookup k = l₂.lookup k) : l₁ = l₂ := by
  induction l₁ generalizing l₂ with
  | nil =>
    cases l₂ with
    | nil => rfl
    | cons p l₂ => exact absurd (h p.1).symm (by simp)
  | cons p₁ l₁ ih =>
    cases l₂ with
    | nil => exact absurd (h p₁.1) (by simp)
    | cons p₂ l₂ =>
      obtain ⟨k₁, a₁⟩ := p₁
      obtain ⟨k₂, a₂⟩ := p₂
      -- the least keys agree, since neither list can look up a key before its least
      obtain rfl : k₁ = k₂ := String.le_antisymm
        (String.not_lt.1 (head_le_of_lookup_eq h₁ fun k => (h k).symm))
        (String.not_lt.1 (head_le_of_lookup_eq h₂ h))
      obtain rfl : a₁ = a₂ := by simpa using h k₁
      obtain ⟨hhead₁, htail₁⟩ := List.pairwise_cons.1 h₁
      obtain ⟨hhead₂, htail₂⟩ := List.pairwise_cons.1 h₂
      rw [ih htail₁ htail₂ fun k => ?_]
      by_cases hk : k = k₁
      · subst hk
        have hnone {l : List (String × α)} (hl : ∀ p ∈ l, k < p.1) : l.lookup k = none := by
          refine List.lookup_eq_none_iff.2 fun p hp => ?_
          have hne : k ≠ p.1 := fun heq => String.lt_irrefl _ (heq ▸ hl p hp)
          simpa using hne
        rw [hnone hhead₁, hnone hhead₂]
      · simpa [lookup_cons_ite, hk] using h k

/-- Maps that look up the same are equal. -/
theorem ext_find? {m n : FieldMap α} (h : ∀ k, m.find? k = n.find? k) : m = n :=
  ext (eq_of_lookup_eq m.sorted n.sorted h)

/-- Insertions that leave every key with the same last value give the same map. -/
theorem ofList_congr {l₁ l₂ : List (String × α)}
    (h : ∀ k, l₁.reverse.lookup k = l₂.reverse.lookup k) : ofList l₁ = ofList l₂ :=
  ext_find? fun k => by rw [find?_ofList, find?_ofList, h]

/-- A map is made of its own entries, in any order. -/
theorem ofList_perm_entries {m : FieldMap α} {l : List (String × α)} (h : l.Perm m.entries) :
    ofList l = m := by
  have hnodup : (l.map (·.1)).Nodup := (h.symm.map _).nodup m.nodup_keys
  refine ext_find? fun k => ?_
  rw [find?_ofList, lookup_reverse hnodup, lookup_perm h hnodup]
  rfl

end FieldMap

end OnlineFeatures
