import OnlineFeatures.Proofs.Text.JsonGrammar

/-!
# Texts that are no JSON

A text is gone through from left to right, within and without strings. Outside of strings a text in
the grammar has no letter of the names that are given to floats which are no numbers
(`JsonGrammar.ValueText.passes`), and so a text in which such a letter is met is not in the grammar
(`JsonGrammar.Refused.not_denotes`).
-/

namespace OnlineFeatures

namespace JsonGrammar

open Numeral (IsPart)

/-! ## Going through a text -/

/-- Where a position in a text is. -/
inductive Place where
  | outside
  | inside
  /-- Behind a backslash. -/
  | escaped
  deriving DecidableEq, Repr

/-- One step through a text. It fails at the letters of `NaN` and `Infinity` that no other word has,
unless they are within a string. -/
def Place.next? : Place → Char → Option Place
  | outside, c =>
    if c = '"' then some inside else if c = 'N' ∨ c = 'I' then none else some outside
  | inside, c => some (if c = '"' then outside else if c = '\\' then escaped else inside)
  | escaped, _ => some inside

/-- Steps through a whole text. -/
def Place.walk? (p : Place) (cs : List Char) : Option Place := cs.foldlM next? p

namespace Place

theorem walk?_append (p : Place) (cs ds : List Char) :
    p.walk? (cs ++ ds) = (p.walk? cs).bind fun q => q.walk? ds :=
  List.foldlM_append

theorem walk?_cons (p : Place) (c : Char) (cs : List Char) :
    p.walk? (c :: cs) = (p.next? c).bind fun q => q.walk? cs :=
  List.foldlM_cons

end Place

/-- Whether a text that is gone through from outside of strings comes out there. -/
def Passes (cs : List Char) : Prop := Place.outside.walk? cs = some .outside

theorem passes_nil : Passes [] := rfl

theorem Passes.append {cs ds : List Char} (hcs : Passes cs) (hds : Passes ds) :
    Passes (cs ++ ds) := by
  rw [Passes, Place.walk?_append, hcs]
  exact hds

/-- Whether a text that is gone through from outside of strings meets a letter of an unofficial name
there. -/
def Refused (cs : List Char) : Prop := Place.outside.walk? cs = none

instance (cs : List Char) : Decidable (Refused cs) :=
  inferInstanceAs (Decidable (Place.outside.walk? cs = none))

theorem Passes.append_refused {cs ds : List Char} (hcs : Passes cs) (hds : Refused ds) :
    Refused (cs ++ ds) := by
  rw [Refused, Place.walk?_append, hcs]
  exact hds

theorem Refused.append {cs : List Char} (h : Refused cs) (ds : List Char) : Refused (cs ++ ds) := by
  rw [Refused, Place.walk?_append, h]
  rfl

/-- Whether a character leaves a walk outside of strings. -/
def Safe (c : Char) : Prop := c ≠ '"' ∧ c ≠ 'N' ∧ c ≠ 'I'

theorem Safe.passes_cons {c : Char} {cs : List Char} (hc : Safe c) (hcs : Passes cs) :
    Passes (c :: cs) := by
  have hstep : Place.outside.next? c = some .outside := by
    rw [Place.next?, if_neg hc.1, if_neg (not_or.2 hc.2)]
  rw [Passes, Place.walk?_cons, hstep]
  exact hcs

theorem Safe.passes {c : Char} (hc : Safe c) : Passes [c] := hc.passes_cons passes_nil

theorem passes_of_safe {cs : List Char} (h : ∀ c ∈ cs, Safe c) : Passes cs := by
  induction cs with
  | nil => exact passes_nil
  | cons c cs ih =>
    obtain ⟨hc, hcs⟩ := List.forall_mem_cons.1 h
    exact hc.passes_cons (ih hcs)

theorem Blank.passes {cs : List Char} (h : Blank cs) : Passes cs := by
  refine passes_of_safe fun c hc => ?_
  have hblank := h c hc
  refine ⟨?_, ?_, ?_⟩ <;> rintro rfl <;> cases hblank

theorem passes_comma : Passes [','] := rfl

theorem passes_flatMap {parts : List (List Char)} (h : ∀ cs ∈ parts, Passes cs) :
    Passes (parts.flatMap (',' :: ·)) := by
  induction parts with
  | nil => exact passes_nil
  | cons cs parts ih =>
    obtain ⟨hcs, hparts⟩ := List.forall_mem_cons.1 h
    exact (passes_comma.append hcs).append (ih hparts)

theorem passes_intercalate {parts : List (List Char)} (h : ∀ cs ∈ parts, Passes cs) :
    Passes (List.intercalate [','] parts) := by
  cases parts with
  | nil => exact passes_nil
  | cons cs rest =>
    obtain ⟨hcs, hrest⟩ := List.forall_mem_cons.1 h
    rw [intercalate_cons]
    exact hcs.append (passes_flatMap hrest)

/-- The first part that is refused makes the whole refused. -/
theorem refused_flatMap {parts : List (List Char)} (h : ∀ cs ∈ parts, Passes cs ∨ Refused cs)
    (hrefused : ∃ cs ∈ parts, Refused cs) : Refused (parts.flatMap (',' :: ·)) := by
  induction parts with
  | nil => simp at hrefused
  | cons cs parts ih =>
    obtain ⟨hcs, hparts⟩ := List.forall_mem_cons.1 h
    rcases hcs with hpasses | hcs
    · have hnot : ¬ Refused cs := fun hcs => Option.some_ne_none _ (hpasses.symm.trans hcs)
      exact (passes_comma.append hpasses).append_refused
        (ih hparts (by simpa [hnot] using hrefused))
    · exact (passes_comma.append_refused hcs).append _

theorem refused_intercalate {parts : List (List Char)} (h : ∀ cs ∈ parts, Passes cs ∨ Refused cs)
    (hrefused : ∃ cs ∈ parts, Refused cs) : Refused (List.intercalate [','] parts) := by
  have hcommas := refused_flatMap h hrefused
  cases parts with
  | nil => exact hcommas
  | cons cs rest =>
    rw [intercalate_cons]
    exact hcommas

/-! ## Texts in the grammar -/

theorem safe_of_isPart {c : Char} (h : IsPart c) : Safe c := by
  refine ⟨?_, ?_, ?_⟩ <;> rintro rfl <;> simp [IsPart] at h

theorem Number.passes {cs : List Char} (h : Number cs) : Passes cs :=
  passes_of_safe fun c hc => safe_of_isPart (h.isPart c hc)

theorem walk?_piece {cs : List Char} {units : List Nat} (h : Piece cs units) :
    Place.inside.walk? cs = some .inside := by
  have hhex {c : Char} {n : Nat} (h : hexValue? c = some n) :
      Place.inside.next? c = some .inside := by
    have hquote : c ≠ '"' := by rintro rfl; cases h
    have hbackslash : c ≠ '\\' := by rintro rfl; cases h
    rw [Place.next?, if_neg hquote, if_neg hbackslash]
  cases h with
  | plain _ hquote hbackslash =>
    rw [Place.walk?_cons, Place.next?, if_neg hquote, if_neg hbackslash]
    rfl
  | short => rfl
  | unit h₁ h₂ h₃ h₄ =>
    have hstart (rest : List Char) :
        Place.inside.walk? ('\\' :: 'u' :: rest) = Place.inside.walk? rest := rfl
    rw [hstart, Place.walk?_cons, hhex h₁, Option.bind_some, Place.walk?_cons, hhex h₂,
      Option.bind_some,
      Place.walk?_cons, hhex h₃, Option.bind_some, Place.walk?_cons, hhex h₄, Option.bind_some]
    rfl

theorem walk?_characters {cs : List Char} {units : List Nat} (h : Characters cs units) :
    Place.inside.walk? cs = some .inside := by
  induction h with
  | nil => rfl
  | cons h _ ih => rw [Place.walk?_append, walk?_piece h, Option.bind_some, ih]

theorem StringText.passes {cs : List Char} {units : List Nat} (h : StringText cs units) :
    Passes cs := by
  obtain ⟨h⟩ := h
  have hopen : Place.outside.next? '"' = some .inside := rfl
  rw [Passes, Place.walk?_cons, hopen, Option.bind_some, Place.walk?_append, walk?_characters h]
  rfl

theorem Item.passes {e : Item} (hpadded : e.Padded) (h : Passes e.text) : Passes e.chars :=
  hpadded.1.passes.append (h.append hpadded.2.passes)

theorem Entry.passes_name {m : Entry} (h : m.Named) :
    Passes (m.left ++ (m.name ++ (m.right ++ [':']))) :=
  h.1.passes.append (h.2.1.passes.append (h.2.2.1.passes.append rfl))

theorem Entry.chars_eq (m : Entry) :
    m.chars = (m.left ++ (m.name ++ (m.right ++ [':']))) ++ m.value.chars := by
  simp [chars]

/-- A value is gone through without meeting a letter of an unofficial name. -/
theorem ValueText.passes {cs : List Char} {t : Tree} (h : ValueText cs t) : Passes cs := by
  induction h with
  | null => rfl
  | true => rfl
  | false => rfl
  | number h => exact h.passes
  | string h => exact h.passes
  | array items hleft hpadded _ hright ih =>
    have hbracket : Safe '[' := by simp [Safe]
    refine hbracket.passes_cons (hleft.passes.append (Passes.append ?_ (hright.passes.append rfl)))
    refine passes_intercalate fun cs hcs => ?_
    obtain ⟨e, he, rfl⟩ := List.mem_map.1 hcs
    exact Item.passes (hpadded e he) (ih e he)
  | object members hleft hnamed _ hright ih =>
    have hbrace : Safe '\x7b' := by simp [Safe]
    refine hbrace.passes_cons (hleft.passes.append (Passes.append ?_ (hright.passes.append rfl)))
    refine passes_intercalate fun cs hcs => ?_
    obtain ⟨m, hm, rfl⟩ := List.mem_map.1 hcs
    rw [m.chars_eq]
    exact (Entry.passes_name (hnamed m hm)).append (Item.passes (hnamed m hm).2.2.2 (ih m hm))

/-- A text that meets a letter of an unofficial name denotes nothing. -/
theorem Refused.not_denotes {cs : List Char} (h : Refused cs) (t : Tree) : ¬ Denotes cs t := by
  rintro ⟨e, hpadded, hvalue⟩
  cases (Item.passes hpadded hvalue.passes).symm.trans h

end JsonGrammar

end OnlineFeatures
