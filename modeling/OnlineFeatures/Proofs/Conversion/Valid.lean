import OnlineFeatures.Conversion.Inferred
import OnlineFeatures.Conversion.Moment
import OnlineFeatures.Proofs.Message.Scalars
import OnlineFeatures.Proofs.Message.Value

/-!
# Converted values are valid

A value that is handed over as it is on the wire stands for itself, and so is only as valid as it
came. All others are made without unknown records, and with these nothing can go wrong
(`Native.valid_infer`, `Native.valid_toTimestamp`).
-/

namespace OnlineFeatures

theorem Except.map_eq_ok_iff {ε α β : Type} {f : α → β} {o : Except ε α} {b : β} :
    o.map f = .ok b ↔ ∃ a, o = .ok a ∧ f a = b := by
  cases o <;> simp [Except.map]

theorem Except.mapError_eq_ok_iff {ε ε' α : Type} {f : ε → ε'} {o : Except ε α} {a : α} :
    o.mapError f = .ok a ↔ o = .ok a := by
  cases o with
  | ok a' => exact ⟨fun h => by cases h; rfl, fun h => by cases h; rfl⟩
  | error e => exact ⟨nofun, nofun⟩

/-! ## Values -/

theorem Content.valid_of_unknown {c : Content} (h : c.unknown = []) : c.Valid := by
  cases c with
  | bytesList l | textList l | int32List l | int64List l | doubleList l | floatList l
  | boolList l =>
    refine ⟨trivial, fun r hr => ?_⟩
    rw [show KeepsUnknown.unknown l = [] from h] at hr
    cases hr
  | _ => exact trivial

theorem Value.valid_unset : Message.Valid Value.unset := Message.valid_empty

theorem Value.valid_ofContent {c : Content} (h : c.unknown = []) :
    Message.Valid (Value.ofContent c) := by
  refine ⟨fun c' hc' => ?_, by rintro _ ⟨⟩⟩
  obtain rfl := Option.some.inj hc'
  exact Content.valid_of_unknown h

namespace Native

/-- Whether a native value that is a message may have been built or read. -/
def Valid : Native → Prop
  | value v => Message.Valid v
  | timestamp t => Message.Valid t
  | _ => True

theorem unknown_ofInteger (i : Int) : (Content.ofInteger i).unknown = [] := by
  rw [Content.ofInteger]
  split <;> rfl

theorem unknown_ofIntegers (is : List Int) : (Content.ofIntegers is).unknown = [] := by
  rw [Content.ofIntegers]
  split <;> rfl

theorem unknown_inferScalar? {v : Native} {c : Content} (h : v.inferScalar? = some (.ok c)) :
    c.unknown = [] := by
  simp only [inferScalar?, Option.orElse_eq_orElse, Option.orElse_eq_or, Option.or_eq_some_iff,
    Option.map_eq_some_iff] at h
  rcases h with ⟨b, -, h⟩ | ⟨-, ⟨i, -, h⟩ | ⟨-, ⟨x, -, h⟩ | ⟨-, ⟨s, -, h⟩ | ⟨-, content, -, h⟩⟩⟩⟩
  · cases h
    rfl
  · obtain ⟨i', -, rfl⟩ := Except.map_eq_ok_iff.1 h
    exact unknown_ofInteger i'
  · obtain ⟨x', -, rfl⟩ := Except.map_eq_ok_iff.1 h
    rfl
  · cases h
    rfl
  · cases h
    rfl

theorem unknown_inferItems? {items : List Native} {c : Content}
    (h : inferItems? items = some (.ok c)) : c.unknown = [] := by
  simp only [inferItems?, Option.orElse_eq_orElse, Option.orElse_eq_or, Option.or_eq_some_iff,
    Option.map_eq_some_iff] at h
  rcases h with ⟨b, -, h⟩ | ⟨-, ⟨is, -, h⟩ | ⟨-, ⟨xs, -, h⟩ | ⟨-, ⟨ss, -, h⟩ | ⟨-, bs, -, h⟩⟩⟩⟩
  · cases h
    rfl
  · obtain ⟨is', -, rfl⟩ := Except.map_eq_ok_iff.1 h
    exact unknown_ofIntegers is'
  · obtain ⟨xs', -, rfl⟩ := Except.map_eq_ok_iff.1 h
    rfl
  · cases h
    rfl
  · cases h
    rfl

theorem unknown_inferList {items : List Native} {c : Content} (h : inferList items = .ok c) :
    c.unknown = [] := by
  rw [inferList] at h
  split at h
  · cases h
  · cases hitems : inferItems? items with
    | none => simp [hitems] at h
    | some inferred =>
      rw [hitems, Option.getD_some] at h
      exact unknown_inferItems? (h ▸ hitems)

/-- Inferred values are valid. -/
theorem valid_infer {v : Native} {stored : Value} (hv : v.Valid) (h : v.infer = .ok stored) :
    Message.Valid stored := by
  unfold infer at h
  split at h
  · cases h
    exact hv
  · cases h
    exact Value.valid_ofContent rfl
  · obtain ⟨c, hc, rfl⟩ := Except.map_eq_ok_iff.1 h
    exact Value.valid_ofContent (unknown_inferList hc)
  · obtain ⟨c, hc, rfl⟩ := Except.map_eq_ok_iff.1 h
    exact Value.valid_ofContent (unknown_inferList hc)
  · obtain ⟨c, hc, rfl⟩ := Except.map_eq_ok_iff.1 h
    cases hscalar : v.inferScalar? with
    | none => simp [hscalar] at hc
    | some inferred =>
      rw [hscalar, Option.getD_some] at hc
      exact Value.valid_ofContent (unknown_inferScalar? (hc ▸ hscalar))

end Native

/-! ## Timestamps -/

theorem Timestamp.valid_of_unknown {t : Timestamp} (h : t.unknown = []) : Message.Valid t := by
  refine ⟨trivial, fun r hr => ?_⟩
  rw [show KeepsUnknown.unknown t = [] from h] at hr
  cases hr

namespace Timestamp

theorem unknown_ofMoment {seconds nanos : Int} {t : Timestamp}
    (h : ofMoment seconds nanos = .ok t) :
    t.unknown = [] := by
  obtain ⟨-, -, rfl⟩ := Except.map_eq_ok_iff.1 h
  rfl

theorem unknown_ofWholeSeconds {n : Int} {t : Timestamp} (h : ofWholeSeconds n = .ok t) :
    t.unknown = [] := by
  rw [ofWholeSeconds] at h
  split at h
  · cases h
    rfl
  · cases h

theorem unknown_ofFloat {x : Double} {t : Timestamp} (h : ofFloat x = .ok t) : t.unknown = [] := by
  rw [ofFloat] at h
  split at h
  · exact unknown_ofMoment (Except.mapError_eq_ok_iff.1 h)
  · cases h

theorem unknown_ofDateTime {d : DateTime} {t : Timestamp} (h : ofDateTime d = .ok t) :
    t.unknown = [] := by
  simp only [ofDateTime] at h
  split at h
  · exact unknown_ofMoment (Except.mapError_eq_ok_iff.1 h)
  · cases h

end Timestamp

/-- Timestamps of native values are valid. -/
theorem Native.valid_toTimestamp {v : Native} {t : Timestamp} (hv : v.Valid)
    (h : v.toTimestamp = .ok t) : Message.Valid t := by
  unfold Native.toTimestamp at h
  split at h
  · cases h
    exact hv
  · exact Timestamp.valid_of_unknown (Timestamp.unknown_ofDateTime h)
  · cases h
  · exact Timestamp.valid_of_unknown (Timestamp.unknown_ofWholeSeconds h)
  · exact Timestamp.valid_of_unknown (Timestamp.unknown_ofWholeSeconds h)
  · exact Timestamp.valid_of_unknown (Timestamp.unknown_ofFloat h)
  · cases h

end OnlineFeatures
