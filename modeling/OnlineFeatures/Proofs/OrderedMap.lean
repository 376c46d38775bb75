import Mathlib.Data.List.Induction
import OnlineFeatures.OrderedMap
import OnlineFeatures.Proofs.Wire.Maps

/-!
# Maps in the order of first insertion, by their look-ups

What each operation does to the look-ups of a map, and when setting a key changes nothing at all
(`OrderedMap.set_eq_self_iff`). A map of a list has the keys in the order in which they first came,
each with its last value (`OrderedMap.keys_ofList`, `OrderedMap.find?_ofList`). Sending a map sorts
its entries but keeps every look-up (`OrderedMap.find?_ofList_entries`).
-/

namespace OnlineFeatures

theorem eraseDups_append_singleton (names : List String) (name : String) :
    (names ++ [name]).eraseDups =
      if name ∈ names.eraseDups then names.eraseDups else names.eraseDups ++ [name] := by
  rw [List.eraseDups_append]
  by_cases hmem : name ∈ names
  · simp [List.removeAll, hmem]
  · simp [List.removeAll, hmem, List.eraseDups_cons]

namespace OrderedMap

variable {α β : Type}

theorem ext {m n : OrderedMap α} (h : m.entries = n.entries) : m = n := by
  cases m
  cases n
  cases h
  rfl

theorem find?_eq_some_iff_mem {m : OrderedMap α} {key : String} {a : α} :
    m.find? key = some a ↔ (key, a) ∈ m.entries :=
  lookup_eq_some_iff_mem m.nodup

/-! ## Setting a key -/

theorem lookup_setEntry (key k : String) (a : α) (l : List (String × α)) :
    (setEntry key a l).lookup k = if k = key then some a else l.lookup k := by
  induction l with
  | nil => simp [setEntry, lookup_cons_ite]
  | cons p l ih =>
    obtain ⟨key', b⟩ := p
    rw [setEntry]
    by_cases hkey : key = key'
    · rw [if_pos hkey, lookup_cons_ite, lookup_cons_ite, ← hkey]
      split <;> rfl
    · rw [if_neg hkey, lookup_cons_ite, lookup_cons_ite, ih]
      by_cases hk : k = key'
      · rw [if_pos hk, if_pos hk, if_neg fun h : k = key => hkey (h.symm.trans hk)]
      · rw [if_neg hk, if_neg hk]

@[simp]
theorem find?_set (m : OrderedMap α) (key k : String) (a : α) :
    (m.set key a).find? k = if k = key then some a else m.find? k :=
  lookup_setEntry key k a m.entries

theorem mem_setEntry {key : String} {a : α} {l : List (String × α)} {p : String × α}
    (h : p ∈ setEntry key a l) : p = (key, a) ∨ p ∈ l := by
  induction l with
  | nil => simpa [setEntry] using h
  | cons q l ih =>
    obtain ⟨k, b⟩ := q
    rw [setEntry] at h
    split at h
    · exact (List.mem_cons.1 h).imp id (List.mem_cons_of_mem _)
    · rcases List.mem_cons.1 h with rfl | h
      · exact .inr List.mem_cons_self
      · exact (ih h).imp id (List.mem_cons_of_mem _)

theorem mem_set {m : OrderedMap α} {key : String} {a : α} {p : String × α}
    (h : p ∈ (m.set key a).entries) : p = (key, a) ∨ p ∈ m.entries :=
  mem_setEntry h

theorem setEntry_eq_self {key : String} {a : α} {l : List (String × α)}
    (h : l.lookup key = some a) : setEntry key a l = l := by
  induction l with
  | nil => simp at h
  | cons p l ih =>
    obtain ⟨k, b⟩ := p
    rw [lookup_cons_ite] at h
    rw [setEntry]
    by_cases hkey : key = k
    · rw [if_pos hkey] at h ⊢
      rw [hkey, Option.some.inj h]
    · rw [if_neg hkey] at h ⊢
      rw [ih h]

/-- Setting a key changes nothing exactly when the key has that value already. -/
theorem set_eq_self_iff {m : OrderedMap α} {key : String} {a : α} :
    m.set key a = m ↔ m.find? key = some a := by
  constructor
  · intro h
    rw [← h, find?_set, if_pos rfl]
  · intro h
    exact ext (setEntry_eq_self h)

theorem setEntry_of_not_mem {key : String} {a : α} {l : List (String × α)}
    (h : key ∉ l.map (·.1)) : setEntry key a l = l ++ [(key, a)] := by
  induction l with
  | nil => rfl
  | cons p l ih =>
    obtain ⟨k, b⟩ := p
    rw [List.map_cons, List.mem_cons, not_or] at h
    rw [setEntry, if_neg h.1, ih h.2, List.cons_append]

/-- New keys stand in the order in which they are set. -/
theorem entries_foldl_set (f : String × α → β) {l : List (String × α)} {m : OrderedMap β}
    (hnodup : (l.map (·.1)).Nodup) (hnew : ∀ p ∈ l, p.1 ∉ m.keys) :
    (l.foldl (fun m p => m.set p.1 (f p)) m).entries = m.entries ++ l.map fun p => (p.1, f p) := by
  induction l generalizing m with
  | nil => simp
  | cons p l ih =>
    obtain ⟨hp, hnodup⟩ := List.nodup_cons.1 hnodup
    obtain ⟨hpnew, hnew⟩ := List.forall_mem_cons.1 hnew
    have hset : (m.set p.1 (f p)).entries = m.entries ++ [(p.1, f p)] := setEntry_of_not_mem hpnew
    rw [List.foldl_cons, ih hnodup, hset, List.append_assoc]
    · rfl
    · intro q hq hmem
      rw [keys, hset, List.map_append, List.mem_append] at hmem
      rcases hmem with hmem | hmem
      · exact hnew q hq hmem
      · exact hp (List.mem_map.2 ⟨q, hq, List.mem_singleton.1 hmem⟩)

/-! ## Lists of entries -/

theorem ofList_append_singleton (l : List (String × α)) (p : String × α) :
    ofList (l ++ [p]) = (ofList l).set p.1 p.2 := by
  rw [ofList, List.foldl_append]
  rfl

/-- The keys of a list stand where they first came. -/
theorem keys_ofList (l : List (String × α)) : (ofList l).keys = (l.map (·.1)).eraseDups := by
  induction l using List.reverseRecOn with
  | nil => rfl
  | append_singleton l p ih =>
    rw [ofList_append_singleton, keys, set, keys_setEntry]
    rw [keys] at ih
    rw [ih, List.map_append, List.map_singleton, eraseDups_append_singleton]

/-- The last value of each key in a list counts. -/
theorem find?_ofList (l : List (String × α)) (k : String) :
    (ofList l).find? k = l.reverse.lookup k := by
  induction l using List.reverseRecOn with
  | nil => rfl
  | append_singleton l p ih =>
    obtain ⟨key, a⟩ := p
    rw [ofList_append_singleton, find?_set, ih, List.reverse_append, List.reverse_singleton,
      List.singleton_append, lookup_cons_ite]

/-! ## Erasing a key -/

theorem lookup_filter_ne (key k : String) (l : List (String × α)) :
    (l.filter (·.1 != key)).lookup k = if k = key then none else l.lookup k := by
  induction l with
  | nil => simp
  | cons p l ih =>
    obtain ⟨key', b⟩ := p
    by_cases hkey : key' = key
    · rw [List.filter_cons_of_neg (by simp [hkey]), ih, lookup_cons_ite, hkey]
      split <;> rfl
    · rw [List.filter_cons_of_pos (by simp [hkey]), lookup_cons_ite, lookup_cons_ite, ih]
      by_cases hk : k = key'
      · rw [if_pos hk, if_pos hk, if_neg fun h : k = key => hkey (hk.symm.trans h)]
      · rw [if_neg hk, if_neg hk]

@[simp]
theorem find?_erase (m : OrderedMap α) (key k : String) :
    (m.erase key).find? k = if k = key then none else m.find? k :=
  lookup_filter_ne key k m.entries

/-! ## Applying a function to each value -/

theorem lookup_map_values (f : α → β) (k : String) (l : List (String × α)) :
    (l.map fun (key, a) => (key, f a)).lookup k = (l.lookup k).map f := by
  induction l with
  | nil => rfl
  | cons p l ih =>
    obtain ⟨key, a⟩ := p
    rw [List.map_cons, lookup_cons_ite, lookup_cons_ite, ih]
    split <;> rfl

@[simp]
theorem find?_mapValues (f : α → β) (m : OrderedMap α) (k : String) :
    (m.mapValues f).find? k = (m.find? k).map f :=
  lookup_map_values f k m.entries

theorem map_setEntry (f : α → β) (key : String) (a : α) (l : List (String × α)) :
    (setEntry key a l).map (fun (k, b) => (k, f b)) =
      setEntry key (f a) (l.map fun (k, b) => (k, f b)) := by
  induction l with
  | nil => rfl
  | cons p l ih =>
    obtain ⟨k, b⟩ := p
    simp only [setEntry, List.map_cons]
    split
    · rfl
    · rw [List.map_cons, ih]

theorem mapValues_set (f : α → β) (m : OrderedMap α) (key : String) (a : α) :
    (m.set key a).mapValues f = (m.mapValues f).set key (f a) :=
  ext (map_setEntry f key a m.entries)

theorem mapValues_congr {f g : α → β} {m : OrderedMap α} (h : ∀ p ∈ m.entries, f p.2 = g p.2) :
    m.mapValues f = m.mapValues g := by
  refine ext (List.map_congr_left fun p hp => ?_)
  obtain ⟨key, a⟩ := p
  simp only [h (key, a) hp]

theorem map_update {l : List (String × α)} {key : String} {a : α} {f g : α → β}
    (hdistinct : (l.map (·.2)).Nodup) (h : l.lookup key = some a)
    (hother : ∀ b, b ≠ a → g b = f b) :
    l.map (fun (k, b) => (k, g b)) = setEntry key (g a) (l.map fun (k, b) => (k, f b)) := by
  induction l with
  | nil => simp at h
  | cons p l ih =>
    obtain ⟨k, b⟩ := p
    obtain ⟨hb, hl⟩ := List.nodup_cons.1 hdistinct
    rw [lookup_cons_ite] at h
    simp only [List.map_cons, setEntry]
    by_cases hkey : key = k
    · rw [if_pos hkey] at h ⊢
      obtain rfl := Option.some.inj h
      have htail : l.map (fun (k, c) => (k, g c)) = l.map fun (k, c) => (k, f c) := by
        refine List.map_congr_left fun q hq => ?_
        show (q.1, g q.2) = (q.1, f q.2)
        rw [hother q.2 fun hc => hb (List.mem_map.2 ⟨q, hq, hc⟩)]
      rw [htail, hkey]
    · rw [if_neg hkey] at h ⊢
      have hne : b ≠ a := fun hc => hb (List.mem_map.2 ⟨(key, a), mem_of_lookup h, hc.symm⟩)
      rw [ih hl h, hother b hne]

/-- Changing the function at the value of one key, where no other key has that value, is setting the
key. -/
theorem mapValues_update {m : OrderedMap α} {key : String} {a : α} {f g : α → β}
    (hdistinct : (m.entries.map (·.2)).Nodup) (h : m.find? key = some a)
    (hother : ∀ b, b ≠ a → g b = f b) : m.mapValues g = (m.mapValues f).set key (g a) :=
  ext (map_update hdistinct h hother)

/-! ## Sending -/

/-- A map is sent with all of its entries. -/
theorem find?_ofList_entries (m : OrderedMap α) (k : String) :
    (FieldMap.ofList m.entries).find? k = m.find? k := by
  rw [FieldMap.find?_ofList, lookup_reverse m.nodup]
  rfl

end OrderedMap

end OnlineFeatures
