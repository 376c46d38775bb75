import Mathlib.Data.List.TakeWhile
import OnlineFeatures.Proofs.Conversion.Kinds
import OnlineFeatures.Reference

/-!
# Which references are refused

A text is refused as a reference exactly when it is empty, ends in a separator or has two of them
(`FeatureReference.Malformed`), and the refusal names the text. A list of texts is refused for the
first such text in it (`FeatureReference.ofNatives_of_find?`), and read when there is none.

Both come from taking a text apart at its first separator: what stands before has no separator, so
that only what follows decides.
-/

namespace OnlineFeatures

/-! ## Lists at a first separator -/

section FirstSeparator

variable {α : Type} [DecidableEq α] {a : α} {l before : List α}

theorem forall_ne_of_not_mem (h : a ∉ l) : ∀ b ∈ l, decide (b ≠ a) = true := by
  intro b hb
  simpa using ne_of_mem_of_not_mem hb h

theorem dropWhile_ne_of_not_mem (h : a ∉ l) : l.dropWhile (· ≠ a) = [] :=
  List.dropWhile_eq_nil_iff.2 (forall_ne_of_not_mem h)

theorem dropWhile_ne_append (h : a ∉ before) (after : List α) :
    (before ++ a :: after).dropWhile (· ≠ a) = a :: after := by
  rw [List.dropWhile_append_of_pos (forall_ne_of_not_mem h)]
  simp

theorem takeWhile_ne_append (h : a ∉ before) (after : List α) :
    (before ++ a :: after).takeWhile (· ≠ a) = before := by
  rw [List.takeWhile_append_of_pos (forall_ne_of_not_mem h)]
  simp

end FirstSeparator

namespace FeatureReference

/-- Whether a text is no reference. -/
def Malformed (ref : String) : Prop :=
  ref.toList = [] ∨ ref.toList.getLast? = some separator ∨ 2 ≤ ref.toList.count separator

instance : DecidablePred Malformed := fun _ => inferInstanceAs (Decidable (_ ∨ _ ∨ _))

/-! ## Texts without a separator -/

section Whole

variable {ref : String} (h : separator ∉ ref.toList)

include h

theorem parse_whole :
    parse ref = if ref.toList = [] then .error (.unnamed ref) else .ok ⟨ref, none⟩ := by
  have hsplit : splitFirst ref.toList = (ref.toList, none) := by
    rw [splitFirst, dropWhile_ne_of_not_mem h]
  simp only [parse, hsplit, if_neg h, String.ofList_toList]
  rfl

theorem malformed_whole : Malformed ref ↔ ref.toList = [] := by
  constructor
  · rintro (hnil | hlast | hcount)
    · exact hnil
    · exact absurd (List.mem_of_getLast? hlast) h
    · rw [List.count_eq_zero_of_not_mem h] at hcount
      omega
  · exact .inl

end Whole

/-! ## Texts with a separator -/

section Divided

variable {ref : String} {before after : List Char}
  (href : ref.toList = before ++ separator :: after) (h : separator ∉ before)

include href h

theorem parse_divided :
    parse ref = if after = [] then .error (.unnamed ref)
      else if separator ∈ after then .error (.divided ref)
      else .ok ⟨String.ofList after, tableOf before⟩ := by
  have hsplit : splitFirst ref.toList = (before, some after) := by
    rw [splitFirst, href, dropWhile_ne_append h, takeWhile_ne_append h]
  simp only [parse, hsplit]

theorem malformed_divided : Malformed ref ↔ after = [] ∨ separator ∈ after := by
  have hlast : ref.toList.getLast? = some separator ↔
      after = [] ∨ after.getLast? = some separator := by
    rw [href]
    cases after with
    | nil => simp
    | cons c after => simp [List.getLast?_append]
  have hcount : 2 ≤ ref.toList.count separator ↔ separator ∈ after := by
    rw [href, List.count_append, List.count_eq_zero_of_not_mem h, List.count_cons_self, ←
      List.count_pos_iff]
    omega
  have hnil : ref.toList ≠ [] := by simp [href]
  rw [Malformed, hlast, hcount]
  constructor
  · rintro (hempty | (hafter | hafter) | hmem)
    · exact absurd hempty hnil
    · exact .inl hafter
    · exact .inr (List.mem_of_getLast? hafter)
    · exact .inr hmem
  · rintro (hafter | hmem)
    · exact .inr (.inl (.inl hafter))
    · exact .inr (.inr hmem)

end Divided

/-! ## One text -/

/-- A text has no separator, or it is divided at the first. -/
theorem whole_or_divided (ref : String) :
    separator ∉ ref.toList ∨
      ∃ before after, ref.toList = before ++ separator :: after ∧ separator ∉ before := by
  by_cases h : separator ∈ ref.toList
  · exact .inr (List.eq_append_cons_of_mem h)
  · exact .inl h

theorem parse_of_malformed {ref : String} (hmalformed : Malformed ref) :
    ∃ why, parse ref = .error why ∧ why.reference = ref := by
  rcases whole_or_divided ref with h | ⟨before, after, href, h⟩
  · refine ⟨.unnamed ref, ?_, rfl⟩
    rw [parse_whole h, if_pos ((malformed_whole h).1 hmalformed)]
  · rw [parse_divided href h]
    by_cases hafter : after = []
    · exact ⟨.unnamed ref, if_pos hafter, rfl⟩
    · have hmem := ((malformed_divided href h).1 hmalformed).resolve_left hafter
      exact ⟨.divided ref, by rw [if_neg hafter, if_pos hmem], rfl⟩

theorem parse_of_not_malformed {ref : String} (hread : ¬ Malformed ref) :
    ∃ r, parse ref = .ok r := by
  rcases whole_or_divided ref with h | ⟨before, after, href, h⟩
  · rw [malformed_whole h] at hread
    exact ⟨⟨ref, none⟩, by rw [parse_whole h, if_neg hread]⟩
  · rw [malformed_divided href h, not_or] at hread
    exact ⟨⟨String.ofList after, tableOf before⟩, by
      rw [parse_divided href h, if_neg hread.1, if_neg hread.2]⟩

/-! ## Lists of texts -/

section Lists

variable {type : CollectionType} {names : List String}

theorem ofNatives_texts :
    ofNatives (.collection type (names.map .text)) =
      names.mapM fun name => (parse name).mapError .reference := by
  show (names.map Native.text).mapM ofNative = _
  rw [List.mapM_map]
  rfl

/-- A list of texts is refused for its first malformed text, which the refusal names. -/
theorem ofNatives_of_find? (type : CollectionType) {bad : String}
    (h : names.find? (Malformed ·) = some bad) :
    ∃ why, ofNatives (.collection type (names.map .text)) = .error (.reference why) ∧
      why.reference = bad := by
  obtain ⟨hbad, before, after, rfl, hbefore⟩ := List.find?_eq_some_iff_append.1 h
  obtain ⟨why, hparse, hnamed⟩ := parse_of_malformed (of_decide_eq_true hbad)
  refine ⟨why, ?_, hnamed⟩
  rw [ofNatives_texts, mapM_eq_error_iff]
  refine ⟨before, bad, after, rfl, fun name hname => ?_, by rw [hparse]; rfl⟩
  have hread : ¬ Malformed name := by simpa using hbefore name hname
  obtain ⟨r, hr⟩ := parse_of_not_malformed hread
  exact ⟨r, by rw [hr]; rfl⟩

/-- A list of texts none of which is malformed is read. -/
theorem ofNatives_of_forall (type : CollectionType) (h : ∀ name ∈ names, ¬ Malformed name) :
    ∃ refs, ofNatives (.collection type (names.map .text)) = .ok refs := by
  rw [ofNatives_texts, exists_mapM_eq_ok_iff]
  intro name hname
  obtain ⟨r, hr⟩ := parse_of_not_malformed (h name hname)
  exact ⟨r, by rw [hr]; rfl⟩

/-- A list of texts that is read has no malformed one. -/
theorem not_malformed_of_ofNatives {refs : List FeatureReference}
    (h : ofNatives (.collection type (names.map .text)) = .ok refs) :
    ∀ name ∈ names, ¬ Malformed name := by
  rw [ofNatives_texts] at h
  intro name hname hmalformed
  obtain ⟨r, hr⟩ := exists_mapM_eq_ok_iff.1 ⟨refs, h⟩ name hname
  obtain ⟨why, hparse, -⟩ := parse_of_malformed hmalformed
  rw [hparse] at hr
  cases hr

end Lists

end FeatureReference

end OnlineFeatures
