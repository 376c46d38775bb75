import Mathlib.Data.List.Basic

/-!
# First members

Reading one thing after another ends with the fault of the first that has one. Where the faults
depend on the things alone, that is the first with a fault at all (`FirstWith`), whether they are
read by a fold or by a traversal.
-/

namespace OnlineFeatures

/-- Whether a member of a list is the first with a property. -/
inductive FirstWith {α : Type} (P : α → Prop) : List α → α → Prop where
  | here {a : α} {l : List α} : P a → FirstWith P (a :: l) a
  | later {a b : α} {l : List α} : ¬ P b → FirstWith P l a → FirstWith P (b :: l) a

namespace FirstWith

variable {α : Type} {P Q : α → Prop} {l m : List α} {a b : α}

theorem holds (h : FirstWith P l a) : P a := by
  induction h with
  | here ha => exact ha
  | later _ _ ih => exact ih

theorem unique (h : FirstWith P l a) (h' : FirstWith P l b) : a = b := by
  induction h with
  | here ha =>
    cases h' with
    | here => rfl
    | later hna => exact absurd ha hna
  | later hna _ ih =>
    cases h' with
    | here hb => exact absurd hb hna
    | later _ hrest => exact ih hrest

theorem exists_iff : (∃ a, FirstWith P l a) ↔ ∃ a ∈ l, P a := by
  induction l with
  | nil => exact ⟨fun ⟨_, h⟩ => (nomatch h), fun ⟨_, h, _⟩ => (nomatch h)⟩
  | cons b l ih =>
    rw [List.exists_mem_cons_iff, ← ih]
    by_cases hb : P b
    · exact ⟨fun _ => .inl hb, fun _ => ⟨b, .here hb⟩⟩
    · constructor
      · rintro ⟨a, ha⟩
        cases ha with
        | here hb' => exact absurd hb' hb
        | later _ hrest => exact .inr ⟨a, hrest⟩
      · rintro (hb' | ⟨a, ha⟩)
        · exact absurd hb' hb
        · exact ⟨a, .later hb ha⟩

theorem append_iff :
    FirstWith P (l ++ m) a ↔ FirstWith P l a ∨ (∀ b ∈ l, ¬ P b) ∧ FirstWith P m a := by
  induction l with
  | nil =>
    exact ⟨fun h => .inr ⟨List.forall_mem_nil _, h⟩,
    fun h => h.elim (fun h => (nomatch h)) And.right⟩
  | cons b l ih =>
    rw [List.cons_append, List.forall_mem_cons]
    constructor
    · intro h
      cases h with
      | here hb => exact .inl (.here hb)
      | later hb hrest =>
        rcases ih.1 hrest with hl | ⟨hl, hm⟩
        · exact .inl (.later hb hl)
        · exact .inr ⟨⟨hb, hl⟩, hm⟩
    · rintro (h | ⟨⟨hb, hl⟩, hm⟩)
      · cases h with
        | here hb => exact .here hb
        | later hb hrest => exact .later hb (ih.2 (.inl hrest))
      · exact .later hb (ih.2 (.inr ⟨hl, hm⟩))

/-- The first member with a property is the first with a stronger one that it has too. -/
theorem strengthen (h : FirstWith P l a) (himp : ∀ b, Q b → P b) (ha : Q a) : FirstWith Q l a := by
  induction h with
  | here => exact .here ha
  | later hb _ ih => exact .later (fun hq => hb (himp _ hq)) (ih ha)

end FirstWith

/-- A fold whose faults depend on the members alone ends with the fault of the first that has
one. -/
theorem foldlM_eq_error_iff {α β ε : Type} {f : β → α → Except ε β} {R : α → ε → Prop}
    (hf : ∀ {b a e}, f b a = .error e ↔ R a e) {l : List α} {b : β} {e : ε} :
    l.foldlM f b = .error e ↔ ∃ a, FirstWith (fun a => ∃ e, R a e) l a ∧ R a e := by
  induction l generalizing b with
  | nil => exact ⟨fun h => (nomatch h), fun ⟨_, h, _⟩ => (nomatch h)⟩
  | cons a l ih =>
    rw [List.foldlM_cons]
    -- whether a step fails does not depend on what has been gathered, only on the member
    cases hstep : f b a with
    | error e' =>
      have ha := hf.1 hstep
      change Except.error e' = .error e ↔ _
      constructor
      · intro h
        cases h
        exact ⟨a, .here ⟨e, ha⟩, ha⟩
      · rintro ⟨a', hfirst, ha'⟩
        obtain rfl := hfirst.unique (.here ⟨e', ha⟩)
        exact hstep.symm.trans (hf.2 ha')
    | ok next =>
      have hfree : ¬ ∃ e, R a e := by
        rintro ⟨e', ha⟩
        cases hstep.symm.trans (hf.2 ha)
      change l.foldlM f next = .error e ↔ _
      rw [ih]
      constructor
      · rintro ⟨a', hfirst, ha'⟩
        exact ⟨a', .later hfree hfirst, ha'⟩
      · rintro ⟨a', hfirst, ha'⟩
        cases hfirst with
        | here h => exact absurd h hfree
        | later _ hrest => exact ⟨a', hrest, ha'⟩

/-! ## Traversals -/

theorem Except.exists_ok_iff {α ε : Type} {o : Except ε α} :
    (∃ a, o = .ok a) ↔ ¬ ∃ e, o = .error e := by
  cases o <;> simp

theorem mapM_cons_eq_error_iff {α β ε : Type} {f : α → Except ε β} {a : α} {l : List α} {e : ε} :
    (a :: l).mapM f = .error e ↔ f a = .error e ∨ (∃ b, f a = .ok b) ∧ l.mapM f = .error e := by
  rw [List.mapM_cons]
  cases f a with
  | error e' => simp [bind, Except.bind]
  | ok b => cases l.mapM f <;> simp [bind, Except.bind, pure, Except.pure]

end OnlineFeatures
