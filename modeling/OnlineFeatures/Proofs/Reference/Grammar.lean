import Mathlib.Data.List.DropRight
import OnlineFeatures.Failure
import OnlineFeatures.Proofs.Reference

/-!
# The grammar of references

A text refers to a feature when it is a name, or a name behind a separator with a table or nothing
before it (`FeatureReference.Refers`). Reading accepts exactly these texts
(`FeatureReference.parse_eq_ok_iff`), and a reference is written as the text that it was read from,
less a separator at the beginning. So two texts refer to the same feature exactly when they differ
in no more than that separator, and no two references are sent as the same message
(`FeatureReference.parse_grammar`).
-/

namespace OnlineFeatures

namespace FeatureReference

/-- The texts that refer to a feature. An empty table is none. -/
inductive Refers : List Char → FeatureReference → Prop where
  | whole {name : List Char} : separator ∉ name → name ≠ [] → Refers name ⟨String.ofList name, none⟩
  | divided {table name : List Char} : separator ∉ table → separator ∉ name → name ≠ [] →
      Refers (table ++ separator :: name) ⟨String.ofList name, tableOf table⟩

/-- A text without the separator that it begins with, if it begins with one. -/
def withoutLeading : List Char → List Char
  | [] => []
  | c :: cs => if c = separator then cs else c :: cs

theorem withoutLeading_of_not_mem {cs : List Char} (h : separator ∉ cs) :
    withoutLeading cs = cs := by
  cases cs with
  | nil => rfl
  | cons c cs => rw [withoutLeading, if_neg (List.ne_of_not_mem_cons h).symm]

theorem withoutLeading_divided {table : List Char} (h : separator ∉ table) (hne : table ≠ [])
    (name : List Char) :
    withoutLeading (table ++ separator :: name) = table ++ separator :: name := by
  obtain ⟨c, table, rfl⟩ := List.exists_cons_of_ne_nil hne
  rw [List.cons_append, withoutLeading, if_neg (List.ne_of_not_mem_cons h).symm]

/-- The reference that a message stands for. -/
def ofMessage (m : ReferenceMessage) : FeatureReference :=
  ⟨m.name, if m.table = "" then none else some m.table⟩

/-! ## Reading -/

theorem parse_eq_ok_iff {ref : String} {r : FeatureReference} :
    parse ref = .ok r ↔ Refers ref.toList r := by
  rcases whole_or_divided ref with h | ⟨before, after, href, h⟩
  · rw [parse_whole h]
    constructor
    · intro hparse
      split at hparse
      · cases hparse
      · rename_i hne
        cases hparse
        have hrefers := Refers.whole h hne
        rwa [String.ofList_toList] at hrefers
    · intro hrefers
      generalize hcs : ref.toList = cs at hrefers
      cases hrefers with
      | whole _ hne => rw [if_neg hne, ← hcs, String.ofList_toList]
      | divided => simp [hcs] at h
  · rw [parse_divided href h, href]
    constructor
    · intro hparse
      split at hparse
      · cases hparse
      · rename_i hne
        split at hparse
        · cases hparse
        · rename_i hname
          cases hparse
          exact .divided h hname hne
    · intro hrefers
      generalize hcs : before ++ separator :: after = cs at hrefers
      cases hrefers with
      | whole hmem => simp [← hcs] at hmem
      | divided htable hname hne =>
        -- both divisions are at the first separator
        have hbefore := congrArg (List.takeWhile (· ≠ separator)) hcs
        have hafter := congrArg (List.dropWhile (· ≠ separator)) hcs
        rw [takeWhile_ne_append h, takeWhile_ne_append htable] at hbefore
        rw [dropWhile_ne_append h, dropWhile_ne_append htable] at hafter
        obtain ⟨-, rfl⟩ := List.cons.inj hafter
        rw [if_neg hne, if_neg hname, hbefore]

/-- A text refers to a feature exactly when it has at most one separator and a name behind it. -/
theorem exists_refers_iff {cs : List Char} :
    (∃ r, Refers cs r) ↔ cs.count separator ≤ 1 ∧ cs.rtakeWhile (· ≠ separator) ≠ [] := by
  have hlast {before name : List Char} (hname : separator ∉ name) :
      (before ++ separator :: name).rtakeWhile (· ≠ separator) = name := by
    rw [List.rtakeWhile, List.reverse_append, List.reverse_cons, List.append_assoc,
      List.singleton_append, takeWhile_ne_append (by simpa using hname), List.reverse_reverse]
  have hall {name : List Char} (hname : separator ∉ name) :
      name.rtakeWhile (· ≠ separator) = name :=
    List.rtakeWhile_eq_self_iff.2 (forall_ne_of_not_mem hname)
  -- the part behind the last separator is the name, so it must not be empty
  constructor
  · rintro ⟨r, hrefers⟩
    cases hrefers with
    | whole hname hne =>
      rw [List.count_eq_zero_of_not_mem hname, hall hname]
      exact ⟨Nat.zero_le 1, hne⟩
    | divided htable hname hne =>
      rw [List.count_append, List.count_eq_zero_of_not_mem htable, List.count_cons_self,
        List.count_eq_zero_of_not_mem hname, hlast hname]
      exact ⟨le_rfl, hne⟩
  · rintro ⟨hcount, hne⟩
    by_cases hmem : separator ∈ cs
    · obtain ⟨before, after, rfl, hbefore⟩ := List.eq_append_cons_of_mem hmem
      rw [List.count_append, List.count_cons_self] at hcount
      have hafter : separator ∉ after := List.count_eq_zero.1 (by omega)
      rw [hlast hafter] at hne
      exact ⟨_, .divided hbefore hafter hne⟩
    · rw [hall hmem] at hne
      exact ⟨_, .whole hmem hne⟩

/-! ## Writing -/

theorem toList_text_of_table {name : String} {table : List Char} (h : table ≠ []) :
    (⟨name, some (String.ofList table)⟩ : FeatureReference).text.toList =
      table ++ separator :: name.toList := by
  have htable : (⟨name, some (String.ofList table)⟩ : FeatureReference).table? =
      some (String.ofList table) := by
    simp [table?, Option.filter, h]
  simp [text, htable]

namespace Refers

variable {cs cs' : List Char} {r r' : FeatureReference}

theorem toList_text (h : Refers cs r) : r.text.toList = withoutLeading cs := by
  cases h with
  | whole hname => simp [text, table?, withoutLeading_of_not_mem hname]
  | @divided table name htable =>
    by_cases hnil : table = []
    · simp [hnil, text, table?, tableOf, withoutLeading]
    · rw [tableOf, if_neg hnil, toList_text_of_table hnil, withoutLeading_divided htable hnil,
        String.toList_ofList]

/-- What a reference is written as refers to the same feature. -/
theorem refers_text (h : Refers cs r) : Refers r.text.toList r := by
  rw [h.toList_text]
  cases h with
  | whole hname hne =>
    rw [withoutLeading_of_not_mem hname]
    exact .whole hname hne
  | @divided table name htable hname hne =>
    by_cases hnil : table = []
    · subst hnil
      rw [List.nil_append, withoutLeading, if_pos rfl]
      exact .whole hname hne
    · rw [withoutLeading_divided htable hnil]
      exact .divided htable hname hne

theorem table_eq_none_iff (h : Refers cs r) :
    r.table = none ↔ separator ∉ cs ∨ cs.head? = some separator := by
  cases h with
  | whole hname => simp [hname]
  | @divided table name htable =>
    cases table with
    | nil => simp [tableOf]
    | cons c table => simp [tableOf, (List.ne_of_not_mem_cons htable).symm]

/-- A reference is read back from its message. -/
theorem ofMessage_message (h : Refers cs r) : ofMessage r.message = r := by
  cases h with
  | whole => simp [ofMessage, message, table?]
  | @divided table name =>
    by_cases htable :
      table = [] <;> simp [ofMessage, message, table?, tableOf, Option.filter, htable]

theorem eq_iff_text_eq (h : Refers cs r) (h' : Refers cs' r') : r = r' ↔ r.text = r'.text := by
  constructor
  · rintro rfl
    rfl
  · intro htext
    have hread := parse_eq_ok_iff.2 h.refers_text
    rw [htext, parse_eq_ok_iff.2 h'.refers_text] at hread
    exact (Except.ok.inj hread).symm

/-- Texts refer to the same feature exactly when they differ in no more than a separator at the
beginning. -/
theorem eq_iff_withoutLeading_eq (h : Refers cs r) (h' : Refers cs' r') :
    r = r' ↔ withoutLeading cs = withoutLeading cs' := by
  rw [h.eq_iff_text_eq h', ← h.toList_text, ← h'.toList_text, String.toList_inj]

theorem eq_iff_message_eq (h : Refers cs r) (h' : Refers cs' r') :
    r = r' ↔ r.message = r'.message := by
  constructor
  · rintro rfl
    rfl
  · intro hmessage
    rw [← h.ofMessage_message, hmessage, h'.ofMessage_message]

end Refers

/-! ## Refusals and lists -/

/-- Whatever is refused as a reference is refused as an invalid argument, named in the refusal. -/
theorem report_of_parse_error {ref : String} {why : ReferenceFault} (h : parse ref = .error why) :
    (Failure.references (.reference why)).kind = .invalidArgument ∧
      (Failure.references (.reference why)).report? =
        some (.invalidArgument why.message [("feature_ref", ref)]) := by
  have hmalformed : Malformed ref := by
    by_contra hread
    obtain ⟨r, hr⟩ := parse_of_not_malformed hread
    cases h.symm.trans hr
  obtain ⟨why', hparse, rfl⟩ := parse_of_malformed hmalformed
  cases h.symm.trans hparse
  exact ⟨rfl, rfl⟩

/-- A list of texts is read as the references of its texts, one for each and in order. -/
theorem ofNatives_eq_ok_iff {type : CollectionType} {names : List String}
    {refs : List FeatureReference} :
    ofNatives (.collection type (names.map .text)) = .ok refs ↔
      List.Forall₂ (fun name r => parse name = .ok r) names refs := by
  rw [ofNatives_texts, mapM_eq_ok_iff]
  simp only [Except.mapError_eq_ok_iff]

/-- Reading, writing and sending references, for every text.

A text is read exactly when it has at most one separator and a name behind it. The reference has no
table exactly when there is no separator or nothing before it, and is written as the text less a
separator at the beginning, which is read as the same reference. Two references that are read are
the same exactly when their texts are, less such a separator, and exactly when their messages are,
from which they can be read back. What is not read is refused as an invalid argument, and a list of
texts is read one by one. -/
theorem parse_grammar (ref : String) :
    ((∃ r, parse ref = .ok r) ↔
      ref.toList.count separator ≤ 1 ∧ ref.toList.rtakeWhile (· ≠ separator) ≠ []) ∧
    (∀ r, parse ref = .ok r →
      r.text.toList = withoutLeading ref.toList ∧ parse r.text = .ok r ∧
      (r.table = none ↔ separator ∉ ref.toList ∨ ref.toList.head? = some separator) ∧
      ofMessage r.message = r ∧
      ∀ ref' r', parse ref' = .ok r' →
        (r = r' ↔ withoutLeading ref.toList = withoutLeading ref'.toList) ∧
        (r = r' ↔ r.message = r'.message)) ∧
    (∀ why, parse ref = .error why →
      (Failure.references (.reference why)).kind = .invalidArgument ∧
      (Failure.references (.reference why)).report? =
        some (.invalidArgument why.message [("feature_ref", ref)])) ∧
    ∀ type (names : List String),
      ((∃ refs, ofNatives (.collection type (names.map .text)) = .ok refs) ↔
        ∀ name ∈ names, ∃ r, parse name = .ok r) ∧
      (∀ refs, ofNatives (.collection type (names.map .text)) = .ok refs →
        List.Forall₂ (fun name r => parse name = .ok r) names refs) ∧
      ∀ why, ofNatives (.collection type (names.map .text)) = .error why →
        (Failure.references why).kind = .invalidArgument := by
  refine ⟨?_, fun r hr => ?_, fun why hwhy => report_of_parse_error hwhy,
    fun type names => ⟨?_, ?_, ?_⟩⟩
  · simp only [parse_eq_ok_iff, exists_refers_iff]
  · have hrefers := parse_eq_ok_iff.1 hr
    refine ⟨hrefers.toList_text, parse_eq_ok_iff.2 hrefers.refers_text, hrefers.table_eq_none_iff,
      hrefers.ofMessage_message, fun ref' r' hr' => ?_⟩
    have hrefers' := parse_eq_ok_iff.1 hr'
    exact ⟨hrefers.eq_iff_withoutLeading_eq hrefers', hrefers.eq_iff_message_eq hrefers'⟩
  · rw [ofNatives_texts, exists_mapM_eq_ok_iff]
    simp only [Except.mapError_eq_ok_iff]
  · intro refs hrefs
    exact ofNatives_eq_ok_iff.1 hrefs
  · intro why hwhy
    rw [ofNatives_texts, mapM_eq_error_iff] at hwhy
    obtain ⟨before, name, after, -, -, hname⟩ := hwhy
    cases hparse : parse name with
    | ok r =>
      rw [hparse] at hname
      cases hname
    | error fault =>
      rw [hparse] at hname
      cases hname
      exact (report_of_parse_error hparse).1

/-- A separator at the beginning is not written again. -/
example : (parse ":rating").toOption.map (·.text) = some "rating" := by decide +kernel

end FeatureReference

end OnlineFeatures
