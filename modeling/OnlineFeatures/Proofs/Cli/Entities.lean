import OnlineFeatures.Cli.Entities
import OnlineFeatures.Proofs.Reference
import OnlineFeatures.Proofs.Row.Reachable

/-!
# Which entity arguments are refused, and what becomes of the others

An entity argument with a piece that is no pair makes no row, and so no rows are made of a list that
has such an argument (`Entities.not_malformed_of_rows`), whatever else is wrong with it. Rows that
are made are new rows with fields set (`Entities.reachable_of_rows`).
-/

namespace OnlineFeatures

theorem forall_of_foldlM_eq_ok {α β ε : Type} {f : β → α → Except ε β} {l : List α} {b c : β}
    (h : l.foldlM f b = .ok c) : ∀ a ∈ l, ∃ b c, f b a = .ok c := by
  induction l generalizing b with
  | nil => simp
  | cons a l ih =>
    rw [List.foldlM_cons] at h
    cases hstep : f b a with
    | error why =>
      rw [hstep] at h
      cases h
    | ok next =>
      rw [hstep] at h
      exact List.forall_mem_cons.2 ⟨⟨b, next, hstep⟩, ih h⟩

/-- What every step of a fold keeps, a fold that succeeds keeps. -/
theorem invariant_of_foldlM_eq_ok {α β ε : Type} {f : β → α → Except ε β} {P : β → Prop}
    (hstep : ∀ {b a c}, P b → f b a = .ok c → P c) {l : List α} {b c : β} (hb : P b)
    (h : l.foldlM f b = .ok c) : P c := by
  induction l generalizing b with
  | nil =>
    obtain rfl : b = c := by simpa [pure, Except.pure] using h
    exact hb
  | cons a l ih =>
    rw [List.foldlM_cons] at h
    cases hnext : f b a with
    | error why =>
      rw [hnext] at h
      cases h
    | ok next =>
      rw [hnext] at h
      exact ih (hstep hb hnext) h

namespace Entities

/-! ## Malformed arguments -/

/-- Whether a piece is no pair: it has no equals sign, or no key before it. -/
def NoPair (piece : List Char) : Prop := '=' ∉ piece ∨ piece.head? = some '='

instance : DecidablePred NoPair := fun _ => inferInstanceAs (Decidable (_ ∨ _))

/-- Whether an argument has a piece that is no pair. -/
def Malformed (entity : String) : Prop := ∃ piece ∈ splitAt ',' entity.toList, NoPair piece

instance : DecidablePred Malformed :=
  fun _ => inferInstanceAs (Decidable (∃ piece ∈ _, NoPair piece))

theorem pair?_eq_none_iff {piece : List Char} : pair? piece = none ↔ NoPair piece := by
  by_cases h : '=' ∈ piece
  · obtain ⟨key, value, rfl, hkey⟩ := List.eq_append_cons_of_mem h
    have hpair : pair? (key ++ '=' :: value) = if key = [] then none else some (key, value) := by
      rw [pair?, dropWhile_ne_append hkey, takeWhile_ne_append hkey]
    rw [hpair, NoPair]
    cases key with
    | nil => simp
    | cons c key => simpa using (List.ne_of_not_mem_cons hkey).symm
  · rw [pair?, dropWhile_ne_of_not_mem h]
    simp [NoPair, h]

theorem not_malformed_of_row {now : Double} {entity : String} {r : Row}
    (h : row now entity = .ok r) :
    ¬ Malformed entity := by
  rintro ⟨piece, hpiece, hnone⟩
  rw [row] at h
  cases hcreate : Row.create now with
  | error why =>
    rw [hcreate] at h
    cases h
  | ok start =>
    rw [hcreate] at h
    obtain ⟨before, after, hset⟩ := forall_of_foldlM_eq_ok h piece hpiece
    rw [setPiece, pair?_eq_none_iff.2 hnone] at hset
    cases hset

theorem not_malformed_of_rows {now : Double} {entities : List String} {rs : List Row}
    (h : rows now entities = .ok rs) : ∀ entity ∈ entities, ¬ Malformed entity := by
  intro entity hentity
  obtain ⟨r, hr⟩ := exists_mapM_eq_ok_iff.1 ⟨rs, h⟩ entity hentity
  exact not_malformed_of_row hr

/-! ## The rows of arguments -/

theorem valid_scalar (s : String) : (scalar s).Valid := by
  rw [scalar]
  split
  · trivial
  · split <;> trivial

theorem reachable_of_setPiece {r r' : Row} {piece : List Char} (hr : r.Reachable)
    (h : setPiece r piece = .ok r') : r'.Reachable := by
  rw [setPiece] at h
  split at h
  · cases h
  · rename_i key value hpair
    simp only at h
    split at h
    · rename_i next hset
      cases h
      have hstep := hr.step (s := .set (String.ofList (trimChars isBlank key))
        (scalar (String.ofList (trimChars isBlank value))) .none) (valid_scalar _)
      rw [Row.step, hset] at hstep
      exact hstep
    · cases h

/-- The rows of arguments come about by setting fields one after another. -/
theorem reachable_of_rows {now : Double} {entities : List String} {rs : List Row}
    (h : rows now entities = .ok rs) : ∀ r ∈ rs, r.Reachable := by
  have hrow {entity : String} {r : Row} (h : row now entity = .ok r) : r.Reachable := by
    rw [row] at h
    cases hcreate : Row.create now with
    | error why =>
      rw [hcreate] at h
      cases h
    | ok start =>
      rw [hcreate] at h
      exact invariant_of_foldlM_eq_ok reachable_of_setPiece (Row.Reachable.created hcreate) h
  induction mapM_eq_ok_iff.1 h with
  | nil => simp
  | cons hentity hrest ih =>
    exact List.forall_mem_cons.2 ⟨hrow hentity, ih (mapM_eq_ok_iff.2 hrest)⟩

end Entities

end OnlineFeatures
