import Std.Data.String.ToInt
import OnlineFeatures.Proofs.Cli.Entities
import OnlineFeatures.Proofs.Cli.Scalars
import OnlineFeatures.Proofs.Row.Rebuilt

/-!
# Rows of entity arguments

An argument writes pairs of a key and a text between commas (`Entities.Writes`), and the row made of
it has one field for each key, with what the last text of the key is taken for, and no statuses
(`Row.Holds`). Setting a field converts the value and reading it converts it back, which leaves a
number or a text as it was (`Entities.unwrap_scalar`), so that the text is printed again in the end.
All pairs that can be told from their separators and blanks can be written so
(`Entities.rows_print_back`).
-/

namespace OnlineFeatures

namespace Entities

/-! ## Arguments -/

/-- A piece of an argument, and the pair that it writes: the key and the text around the first
equals sign, without the blanks around each. -/
inductive Piece : List Char → String × String → Prop where
  | pair {key text : String} : key ≠ "" → '=' ∉ key.toList → ',' ∉ key.toList → ',' ∉ text.toList →
      Piece (key.toList ++ '=' :: text.toList) (stripped key, stripped text)

/-- The pairs that an argument writes, with commas between. -/
inductive Writes : List Char → List (String × String) → Prop where
  | last {piece : List Char} {p : String × String} : Piece piece p → Writes piece [p]
  | more {piece rest : List Char} {p : String × String} {ps : List (String × String)} :
      Piece piece p → Writes rest ps → Writes (piece ++ ',' :: rest) (p :: ps)

theorem splitAt_of_not_mem {separator : Char} {piece : List Char} (h : separator ∉ piece) :
    splitAt separator piece = [piece] := by
  induction piece with
  | nil => rfl
  | cons c piece ih =>
    rw [List.mem_cons, not_or] at h
    rw [splitAt, if_neg (Ne.symm h.1), ih h.2]

theorem splitAt_append {separator : Char} {piece : List Char} (h : separator ∉ piece)
    (rest : List Char) :
    splitAt separator (piece ++ separator :: rest) = piece :: splitAt separator rest := by
  induction piece with
  | nil => rw [List.nil_append, splitAt, if_pos rfl]
  | cons c piece ih =>
    rw [List.mem_cons, not_or] at h
    rw [List.cons_append, splitAt, if_neg (Ne.symm h.1), ih h.2]

theorem Piece.not_mem {piece : List Char} {p : String × String} (h : Piece piece p) :
    ',' ∉ piece := by
  obtain ⟨-, -, hkey, htext⟩ := h
  simp [hkey, htext]

theorem Piece.pair?_eq {piece : List Char} {p : String × String} (h : Piece piece p) :
    ∃ key text : String, pair? piece = some (key.toList, text.toList) ∧
      p = (stripped key, stripped text) := by
  obtain @⟨key, text, hne, hequals, -, -⟩ := h
  have hkey : key.toList ≠ [] := fun h => hne (String.toList_eq_nil_iff.1 h)
  refine ⟨key, text, ?_, rfl⟩
  rw [pair?, dropWhile_ne_append hequals, takeWhile_ne_append hequals]
  exact if_neg hkey

theorem piece_of_not_noPair {piece : List Char} (hcomma : ',' ∉ piece) (h : ¬ NoPair piece) :
    ∃ p, Piece piece p := by
  rw [NoPair, not_or, not_not] at h
  obtain ⟨hequals, hhead⟩ := h
  obtain ⟨key, text, rfl, hkey⟩ := List.eq_append_cons_of_mem hequals
  simp only [List.mem_append, List.mem_cons, not_or] at hcomma
  have hne : String.ofList key ≠ "" := by
    intro hempty
    rw [String.ofList_eq_empty_iff] at hempty
    exact hhead (by rw [hempty]; rfl)
  have hequals : '=' ∉ (String.ofList key).toList := by rwa [String.toList_ofList]
  have hcommas : ',' ∉ (String.ofList key).toList ∧ ',' ∉ (String.ofList text).toList := by
    rw [String.toList_ofList, String.toList_ofList]
    exact ⟨hcomma.1, hcomma.2.2⟩
  have hpiece := Piece.pair hne hequals hcommas.1 hcommas.2
  rw [String.toList_ofList, String.toList_ofList] at hpiece
  exact ⟨_, hpiece⟩

/-- An argument all of whose pieces are pairs writes some. -/
theorem exists_writes {cs : List Char} (h : ∀ piece ∈ splitAt ',' cs, ¬ NoPair piece) :
    ∃ ps, Writes cs ps := by
  induction hlength : cs.length using Nat.strongRecOn generalizing cs with
  | ind n ih =>
    by_cases hcomma : ',' ∈ cs
    · obtain ⟨piece, rest, rfl, hpiece⟩ := List.eq_append_cons_of_mem hcomma
      rw [splitAt_append hpiece] at h
      obtain ⟨hhead, htail⟩ := List.forall_mem_cons.1 h
      obtain ⟨p, hp⟩ := piece_of_not_noPair hpiece hhead
      have hshorter : rest.length < n := by
        rw [← hlength, List.length_append, List.length_cons]
        omega
      obtain ⟨ps, hps⟩ := ih rest.length hshorter htail rfl
      exact ⟨p :: ps, .more hp hps⟩
    · rw [splitAt_of_not_mem hcomma] at h
      obtain ⟨p, hp⟩ := piece_of_not_noPair hcomma (h cs (List.mem_singleton.2 rfl))
      exact ⟨[p], .last hp⟩

/-! ## Fields -/

/-- The settings of pairs: each key with what its text is taken for. -/
def settings (ps : List (String × String)) : List (String × Native) :=
  ps.map fun p => (p.1, scalar p.2)

theorem foldlM_setPiece_cons {piece : List Char} {p : String × String} (h : Piece piece p) (r : Row)
    (pieces : List (List Char)) : (piece :: pieces).foldlM setPiece r =
      match r.set p.1 (scalar p.2) .none with
      | (r, .ok ()) => pieces.foldlM setPiece r
      | (_, .error why) => .error why.failure := by
  obtain ⟨key, text, hpair, rfl⟩ := h.pair?_eq
  simp only [List.foldlM_cons, setPiece, hpair, stripped]
  generalize r.set _ _ .none = outcome
  rcases outcome with ⟨next, _ | _⟩ <;> rfl

theorem setAll_settings_cons (p : String × String) (ps : List (String × String)) (r : Row) :
    r.setAll (fun _ => none) (settings (p :: ps)) =
      match r.set p.1 (scalar p.2) .none with
      | (r, .ok ()) => r.setAll (fun _ => none) (settings ps)
      | (_, .error why) => .error why := rfl

/-- The pieces of an argument set the fields of the pairs that it writes. -/
theorem foldlM_setPiece {cs : List Char} {ps : List (String × String)}
    (h : Writes cs ps) (r : Row) :
    (splitAt ',' cs).foldlM setPiece r =
      (r.setAll (fun _ => none) (settings ps)).mapError RowFault.failure := by
  induction h generalizing r with
  | @last piece p hpiece =>
    rw [splitAt_of_not_mem hpiece.not_mem, foldlM_setPiece_cons hpiece, setAll_settings_cons]
    rcases r.set p.1 (scalar p.2) .none with ⟨next, _ | _⟩ <;> rfl
  | @more piece rest p ps hpiece _ ih =>
    rw [splitAt_append hpiece.not_mem, foldlM_setPiece_cons hpiece, setAll_settings_cons]
    rcases r.set p.1 (scalar p.2) .none with ⟨next, _ | _⟩
    · rfl
    · exact ih next

/-! ## Values -/

theorem normalScalar_scalar (s : String) : (scalar s).NormalScalar (scalar s) := by
  rcases scalar_cases s with ⟨i, hscalar, -⟩ | ⟨-, ⟨x, hscalar, -⟩ | ⟨hscalar, -⟩⟩
  · rw [hscalar]
    exact .integer rfl
  · rw [hscalar]
    exact .float x
  · rw [hscalar]
    exact .text s

/-- What a text is taken for is stored and read again unaltered. -/
theorem unwrap_scalar {s : String} {w : Value} (h : (scalar s).infer = .ok w) :
    w.unwrap = scalar s := by
  have hproper : (scalar s).Proper ∧ ∀ u, scalar s ≠ .value u := by
    rcases scalar_cases s
      with ⟨i, hscalar, -⟩ | ⟨-, ⟨x, hscalar, -⟩ | ⟨hscalar, -⟩⟩ <;> rw [hscalar] <;>
      exact ⟨trivial, nofun⟩
  exact (Native.infer_normal_of_ok hproper.1 hproper.2 h).1.unique (.scalar (normalScalar_scalar s))

/-- Whether a text is no integer, or one of 64 bits. -/
def Storable (s : String) : Prop :=
  IntegerText s → ∃ i : Int, toString i = s ∧ -2 ^ 63 ≤ i ∧ i < 2 ^ 63

theorem exists_infer_scalar {s : String} (h : Storable s) : ∃ w, (scalar s).infer = .ok w := by
  have hkind : ∃ k, (scalar s).Settled k := by
    rcases scalar_cases s with ⟨i, hscalar, hi⟩ | ⟨-, ⟨x, hscalar, -⟩ | ⟨hscalar, -⟩⟩
    · obtain ⟨j, hj, hlow, hhigh⟩ := h (integerText_iff.2 ⟨i, hi⟩)
      obtain rfl : j = i := by
        rw [← Int.repr_inj, ← Int.toString_eq_repr, ← Int.toString_eq_repr, hj,
          (scalarInt?_eq_some_iff.1 hi).1]
      rw [hscalar]
      refine ⟨.integer, rfl, fun k hk => ?_, .integer rfl⟩
      obtain rfl := Option.some.inj hk
      omega
    · rw [hscalar]
      exact ⟨_, Native.settled_float x⟩
    · rw [hscalar]
      exact ⟨_, Native.settled_text s⟩
  obtain ⟨k, hk⟩ := hkind
  obtain ⟨w, hw, -⟩ := hk.infer_eq
  exact ⟨w, hw⟩

end Entities

/-- Whether a row has the fields of pairs: one for each key, in the order in which the keys first
come, with what the last text of the key is taken for, and without statuses. -/
structure Row.Holds (r : Row) (ps : List (String × String)) : Prop where
  keys : r.fields.keys = (ps.map (·.1)).eraseDups
  values : ∀ key ∈ r.fields.keys, ∃ text, ps.reverse.lookup key = some text ∧
    ∀ default, r.get key default = Entities.scalar text
  statuses : r.statuses = .empty

namespace Entities

variable {now : Double} {start r : Row} {entity : String} {ps : List (String × String)}

theorem fields_storeAll_settings (hstart : Row.create now = .ok start)
    (ps : List (String × String)) :
    (start.storeAll (fun _ => none) (settings ps)).fields =
      OrderedMap.ofList (ps.map fun p => (p.1, Row.converted (scalar p.2))) := by
  rw [Row.fields_storeAll, ← Row.emptyAt_of_create hstart, settings, List.foldl_map,
    OrderedMap.ofList, List.foldl_map]
  rfl

/-- The last text of a key counts. -/
theorem find?_storeAll_settings (hstart : Row.create now = .ok start) (ps : List (String × String))
    (key : String) :
    (start.storeAll (fun _ => none) (settings ps)).fields.find? key =
      (ps.reverse.lookup key).map fun text => Row.converted (scalar text) := by
  rw [fields_storeAll_settings hstart, OrderedMap.find?_ofList, ← List.map_reverse]
  exact OrderedMap.lookup_map_values (fun text => Row.converted (scalar text)) key ps.reverse

theorem holds_storeAll (hstart : Row.create now = .ok start)
    (h : ∀ p ∈ settings ps, ∃ w, p.2.infer = .ok w) :
    (start.storeAll (fun _ => none) (settings ps)).Holds ps := by
  have hfind := find?_storeAll_settings hstart ps
  refine ⟨?_, fun key hkey => ?_, ?_⟩
  · rw [fields_storeAll_settings hstart, OrderedMap.keys_ofList, List.map_map]
    rfl
  · rw [← OrderedMap.isSome_find?, hfind, Option.isSome_map, Option.isSome_iff_exists] at hkey
    obtain ⟨text, htext⟩ := hkey
    have hmem : (key, scalar text) ∈ settings ps :=
      List.mem_map.2 ⟨(key, text), List.mem_reverse.1 (mem_of_lookup htext), rfl⟩
    obtain ⟨w, hw⟩ := h _ hmem
    refine ⟨text, htext, fun default => ?_⟩
    rw [Row.get, hfind, htext, Option.map_some, Row.converted_of_infer hw]
    exact unwrap_scalar hw
  · refine OrderedMap.ext (List.eq_nil_iff_forall_not_mem.2 fun p hp => ?_)
    have hstatus := OrderedMap.find?_eq_some_iff_mem.2 hp
    rw [Row.find?_statuses_storeAll, ← Row.emptyAt_of_create hstart] at hstatus
    split at hstatus <;> cases hstatus

/-- The row of an argument holds the pairs that the argument writes. -/
theorem holds_of_row (h : row now entity = .ok r) (hwrites : Writes entity.toList ps) :
    r.Holds ps := by
  rw [row] at h
  cases hstart : Row.create now with
  | error why =>
    rw [hstart] at h
    cases h
  | ok start =>
    rw [hstart] at h
    replace h : (splitAt ',' entity.toList).foldlM setPiece start = .ok r := h
    rw [foldlM_setPiece hwrites, Except.mapError_eq_ok_iff] at h
    have hinfer := Row.exists_infer_of_setAll h
    rw [Row.setAll_eq hinfer] at h
    obtain rfl := Except.ok.inj h
    exact holds_storeAll hstart hinfer

/-- An argument is accepted if all of its texts can be stored. -/
theorem exists_row (hstart : Row.create now = .ok start) (hwrites : Writes entity.toList ps)
    (h : ∀ p ∈ ps, Storable p.2) : ∃ r, row now entity = .ok r := by
  have hinfer : ∀ p ∈ settings ps, ∃ w, p.2.infer = .ok w := by
    intro p hp
    obtain ⟨q, hq, rfl⟩ := List.mem_map.1 hp
    exact exists_infer_scalar (h q hq)
  refine ⟨start.storeAll (fun _ => none) (settings ps), ?_⟩
  rw [row, hstart]
  show (splitAt ',' entity.toList).foldlM setPiece start = _
  rw [foldlM_setPiece hwrites, Row.setAll_eq hinfer]
  rfl

/-! ## Writing pairs -/

/-- Whether a pair can be told from its separators and blanks, and its text stored. -/
structure Writable (p : String × String) : Prop where
  key_ne : p.1 ≠ ""
  key_stripped : stripped p.1 = p.1
  key_free : '=' ∉ p.1.toList ∧ ',' ∉ p.1.toList
  text_stripped : stripped p.2 = p.2
  text_free : ',' ∉ p.2.toList
  storable : Storable p.2

/-- The argument of pairs. -/
def joined (ps : List (String × String)) : String :=
  ",".intercalate (ps.map fun p => p.1 ++ "=" ++ p.2)

theorem Writable.piece {p : String × String} (h : Writable p) :
    Piece (p.1 ++ "=" ++ p.2).toList p := by
  have hpiece := Piece.pair h.key_ne h.key_free.1 h.key_free.2 h.text_free
  rw [h.key_stripped, h.text_stripped] at hpiece
  rw [String.toList_append, String.toList_append, List.append_assoc]
  exact hpiece

theorem writes_joined (hne : ps ≠ []) (h : ∀ p ∈ ps, Writable p) :
    Writes (joined ps).toList ps := by
  induction ps with
  | nil => exact absurd rfl hne
  | cons p ps ih =>
    obtain ⟨hp, hps⟩ := List.forall_mem_cons.1 h
    cases ps with
    | nil => exact .last hp.piece
    | cons q ps =>
      have hrest := Writes.more hp.piece (ih (List.cons_ne_nil q ps) hps)
      rw [joined, List.map_cons, List.map_cons, String.intercalate_cons_cons, String.toList_append,
        String.toList_append, List.append_assoc]
      exact hrest

/-! ## Entity arguments -/

/-- Of arguments that are accepted, each writes pairs, and its row has one field for each key, which
holds what the last text of the key is taken for, and no status. What a text is taken for prints as
the text; it is an integer or a float exactly if the text is that of one, and the text itself
otherwise, so that different texts make different values. Any pairs that can be told from their
separators and blanks, and whose texts are no integers beyond 64 bits, make an argument that is
accepted and writes them. -/
theorem rows_print_back :
    (∀ now entities rs, rows now entities = .ok rs →
      List.Forall₂ (fun entity r => (∃ ps, Writes entity.toList ps) ∧
        ∀ ps, Writes entity.toList ps → r.Holds ps)
        entities rs) ∧
    (∀ text, TakenFor (scalar text) text) ∧ Function.Injective scalar ∧
    ∀ now start ps, Row.create now = .ok start → ps ≠ [] → (∀ p ∈ ps, Writable p) →
      ∃ r, rows now [joined ps] = .ok [r] ∧ Writes (joined ps).toList ps ∧ r.Holds ps := by
  refine ⟨fun now entities rs h => ?_, scalar_takenFor, scalar_injective,
    fun now start ps hstart hne hps => ?_⟩
  · refine (mapM_eq_ok_iff.1 h).imp fun entity r hrow => ⟨?_, fun ps => holds_of_row hrow⟩
    have hwellFormed := not_malformed_of_row hrow
    rw [Malformed] at hwellFormed
    push Not at hwellFormed
    exact exists_writes hwellFormed
  · have hwrites := writes_joined hne hps
    obtain ⟨r, hr⟩ := exists_row hstart hwrites fun p hp => (hps p hp).storable
    exact ⟨r, mapM_eq_ok_iff.2 (.cons hr .nil), hwrites, holds_of_row hr hwrites⟩

/-- A key that comes twice keeps its place and takes the later text, here one that is no number. -/
theorem rows_print_back_repeated :
    let ps := [("driver", "1001"), ("score", "0.5"), ("driver", "007")]
    joined ps = "driver=1001,score=0.5,driver=007" ∧
    ∃ r, rows ⟨0x3ff0000000000000⟩ [joined ps] = .ok [r] ∧ r.fields.entries =
      [("driver", .ofContent (.text "007")), ("score", .ofContent (.double ⟨0x3fe0000000000000⟩))] ∧
      r.Holds ps := by
  intro ps
  have hstart : Row.create ⟨0x3ff0000000000000⟩ = .ok (.emptyAt (.ofSeconds 1)) := by decide +kernel
  have hnumber : Storable "1001" := fun _ => ⟨1001, by decide, by decide, by decide⟩
  have hother (s : String) (h : scalarInt? s = none) : Storable s := fun hinteger => by
    simp [integerText_iff, h] at hinteger
  have hwritable : ∀ p ∈ ps, Writable p := by
    simp only [ps, List.forall_mem_cons]
    exact ⟨⟨by decide, by decide, by decide, by decide, by decide, hnumber⟩,
      ⟨by decide, by decide, by decide, by decide, by decide, hother _ (by decide +kernel)⟩,
      ⟨by decide, by decide, by decide, by decide, by decide, hother _ (by decide +kernel)⟩,
      List.forall_mem_nil _⟩
  obtain ⟨r, hr, -, hholds⟩ := rows_print_back.2.2.2 _ _ ps hstart (by decide) hwritable
  refine ⟨by decide +kernel, r, hr, ?_, hholds⟩
  have hentries : (rows ⟨0x3ff0000000000000⟩ [joined ps]).map (·.map (·.fields.entries)) =
      .ok [[("driver", .ofContent (.text "007")),
        ("score", .ofContent (.double ⟨0x3fe0000000000000⟩))]] := by
    decide +kernel
  rw [hr] at hentries
  simpa [Except.map] using hentries

end Entities

end OnlineFeatures
