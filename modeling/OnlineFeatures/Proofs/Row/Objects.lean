/-!
# Objects held under keys

Objects of one sort, each with an identity, of which some are held under keys. Two things are done
to them: a new object is stored under a key in place of the one held there, and the object held
under a key is edited in place. Nothing is ever held under two keys (`Objects.Separate`, kept by
each effect in `Objects.Separate.after`).

Whoever remembers an object's identity sees what becomes of it (`Objects.getElem?_run`): all edits
made through its key, until another object is stored under that key, and none after that.
-/

namespace OnlineFeatures

/-- What is done to the objects of one sort. -/
inductive Effect (κ α : Type) where
  /-- A new object is held under a key from now on. -/
  | store (key : κ) (a : α)
  /-- The object held under a key is edited in place. -/
  | edit (key : κ) (f : α → α)
  | nothing

/-- One edit after another. -/
def applied {α : Type} (edits : List (α → α)) (a : α) : α := edits.foldl (fun a f => f a) a

/-- The edits made through a key until something is stored under it. -/
def editsUntilStored {κ α : Type} [DecidableEq κ] (key : κ) : List (Effect κ α) → List (α → α)
  | [] => []
  | .store k _ :: effects => if k = key then [] else editsUntilStored key effects
  | .edit k f :: effects =>
    if k = key then f :: editsUntilStored key effects else editsUntilStored key effects
  | .nothing :: effects => editsUntilStored key effects

/-- The objects that there have been, and the identities of those held under keys. Identities are
positions in the list of objects. -/
structure Objects (κ α : Type) where
  held : κ → Option Nat
  all : List α

namespace Objects

variable {κ α : Type} [DecidableEq κ]

/-- The objects after an effect. -/
def after (o : Objects κ α) : Effect κ α → Objects κ α
  | .store key a => ⟨fun k => if k = key then some o.all.length else o.held k, o.all ++ [a]⟩
  | .edit key f =>
    match o.held key with
    | some id => { o with all := o.all.modify id f }
    | none => o
  | .nothing => o

/-- The objects after one effect after another. -/
def run (o : Objects κ α) (effects : List (Effect κ α)) : Objects κ α := effects.foldl after o

/-! ## The invariant -/

/-- Whether what is held are objects, each of them held under one key alone. -/
structure Separate (o : Objects κ α) : Prop where
  live : ∀ key id, o.held key = some id → id < o.all.length
  distinct : ∀ key key' id, o.held key = some id → o.held key' = some id → key = key'

omit [DecidableEq κ] in
theorem Separate.ne_length {o : Objects κ α} (h : o.Separate) {key : κ} {id : Nat}
    (hid : o.held key = some id) : id ≠ o.all.length :=
  Nat.ne_of_lt (h.live key id hid)

theorem held_after_edit (o : Objects κ α) (key : κ) (f : α → α) :
    (o.after (.edit key f)).held = o.held := by
  rw [after]
  cases o.held key <;> rfl

theorem length_after_edit (o : Objects κ α) (key : κ) (f : α → α) :
    (o.after (.edit key f)).all.length = o.all.length := by
  rw [after]
  cases o.held key with
  | none => rfl
  | some id => exact List.length_modify ..

/-- Each effect keeps objects separate. -/
theorem Separate.after {o : Objects κ α} (h : o.Separate) (effect : Effect κ α) :
    (o.after effect).Separate := by
  cases effect with
  | store key a =>
    refine ⟨fun k id hid => ?_, fun k k' id hid hid' => ?_⟩
    · simp only [Objects.after, List.length_append, List.length_singleton] at hid ⊢
      split at hid
      · cases hid
        exact Nat.lt_succ_self _
      · exact Nat.lt_succ_of_lt (h.live k id hid)
    · simp only [Objects.after] at hid hid'
      -- the identity of the new object is not among those held so far
      by_cases hk : k = key <;> by_cases hk' : k' = key
      · rw [hk, hk']
      · rw [if_pos hk] at hid
        rw [if_neg hk'] at hid'
        exact absurd (Option.some.inj hid).symm (h.ne_length hid')
      · rw [if_neg hk] at hid
        rw [if_pos hk'] at hid'
        exact absurd (Option.some.inj hid').symm (h.ne_length hid)
      · rw [if_neg hk] at hid
        rw [if_neg hk'] at hid'
        exact h.distinct k k' id hid hid'
  | edit key f =>
    refine ⟨fun k id hid => ?_, fun k k' id hid hid' => ?_⟩
    · rw [held_after_edit] at hid
      rw [length_after_edit]
      exact h.live k id hid
    · rw [held_after_edit] at hid hid'
      exact h.distinct k k' id hid hid'
  | nothing => exact h

theorem Separate.run {o : Objects κ α} (h : o.Separate) (effects : List (Effect κ α)) :
    (o.run effects).Separate := by
  induction effects generalizing o with
  | nil => exact h
  | cons effect effects ih => exact ih (h.after effect)

/-! ## What becomes of an object -/

omit [DecidableEq κ] in
theorem getElem?_append_of_lt {o : Objects κ α} {id : Nat} (hid : id < o.all.length) (a : α) :
    (o.all ++ [a])[id]? = o.all[id]? :=
  List.getElem?_append_left hid

/-- An edit reaches the object that is held under its key and no other. -/
theorem getElem?_after_edit (o : Objects κ α) (key : κ) (f : α → α) (id : Nat) :
    (o.after (.edit key f)).all[id]? = if o.held key = some id then o.all[id]?.map f
      else o.all[id]? := by
  rw [after]
  cases o.held key with
  | none => simp
  | some id' =>
    rw [List.getElem?_modify]
    by_cases hid : id' = id
    · simp [hid]
    · simp [hid]

/-- An object that is held no more stays as it is. -/
theorem getElem?_run_of_not_held {o : Objects κ α} {id : Nat} (hid : id < o.all.length)
    (hheld : ∀ key, o.held key ≠ some id) (effects : List (Effect κ α)) :
    (o.run effects).all[id]? = o.all[id]? := by
  induction effects generalizing o with
  | nil => rfl
  | cons effect effects ih =>
    -- storing makes a new object and editing reaches held ones only, so this one is out of reach
    cases effect with
    | store key a =>
      refine (ih (o := o.after (.store key a)) ?_ fun k hk => ?_).trans
        (getElem?_append_of_lt hid a)
      · simp only [after, List.length_append]
        exact Nat.lt_add_right _ hid
      · simp only [after] at hk
        split at hk
        · exact Nat.ne_of_gt hid (Option.some.inj hk)
        · exact hheld k hk
    | edit key f =>
      refine (ih (o := o.after (.edit key f)) ?_ fun k hk => ?_).trans ?_
      · rw [length_after_edit]
        exact hid
      · rw [held_after_edit] at hk
        exact hheld k hk
      · rw [getElem?_after_edit, if_neg (hheld key)]
    | nothing => exact ih hid hheld

/-- An object that is held takes all edits through its key until another one is stored there. -/
theorem getElem?_run {o : Objects κ α} (h : o.Separate) {key : κ} {id : Nat}
    (hid : o.held key = some id) (effects : List (Effect κ α)) :
    (o.run effects).all[id]? = o.all[id]?.map (applied (editsUntilStored key effects)) := by
  induction effects generalizing o with
  | nil => exact Option.map_id_apply.symm
  | cons effect effects ih =>
    have hafter := h.after effect
    cases effect with
    | store k a =>
      have hlive := h.live key id hid
      rw [editsUntilStored]
      by_cases hk : k = key
      · rw [if_pos hk]
        -- from here on the object is held under no key
        refine (getElem?_run_of_not_held (o := o.after (.store k a)) ?_ (fun k' hk' => ?_)
          effects).trans ?_
        · simp only [after, List.length_append]
          exact Nat.lt_add_right _ hlive
        · simp only [after] at hk'
          split at hk'
          · exact h.ne_length hid (Option.some.inj hk').symm
          · rename_i hne
            exact hne ((h.distinct k' key id hk' hid).trans hk.symm)
        · exact (getElem?_append_of_lt hlive a).trans Option.map_id_apply.symm
      · rw [if_neg hk]
        have hheld : (o.after (.store k a)).held key = some id := by
          simp only [after, if_neg (Ne.symm hk)]
          exact hid
        refine (ih hafter hheld).trans ?_
        exact congrArg _ (getElem?_append_of_lt hlive a)
    | edit k f =>
      have hheld : (o.after (.edit k f)).held key = some id := by
        rw [held_after_edit]
        exact hid
      refine (ih hafter hheld).trans ?_
      rw [getElem?_after_edit, editsUntilStored]
      by_cases hk : k = key
      · rw [if_pos hk, if_pos (hk ▸ hid), Option.map_map]
        rfl
      · rw [if_neg hk, if_neg fun hid' => hk (h.distinct k key id hid' hid)]
    | nothing => exact ih hafter hid

end Objects

end OnlineFeatures
