import OnlineFeatures.Proofs.Cli.EntityRows
import OnlineFeatures.Proofs.FirstWith

/-!
# Which entity arguments are accepted

A piece of an argument should be accepted when it has an equals sign and before the first one a key
that is not blank (`Entities.Keyed`), whatever stands behind it. Pieces are treated otherwise in two
cases. The key is asked for before the blanks around it are taken away, so that a blank key is
accepted and makes a field without a name (`Entities.BlankKeyed`). And a text that is an integer
beyond 64 bits is taken for a number that no field can hold (`Entities.Wide`).

`Entities.rows_accepted` says of every list of arguments which of them are accepted, what rows are
made of them and how the first other piece is refused, and that all is as it should be exactly when
the first piece that is not sound is one without equals sign or key.
-/

namespace OnlineFeatures

/-- Corresponding members of two lists make existence the same in both. -/
theorem exists_mem_congr {α β : Type} {R : α → β → Prop} {P : α → Prop} {Q : β → Prop}
    {l : List α} {m : List β} (h : List.Forall₂ R l m) (hcongr : ∀ {a b}, R a b → (P a ↔ Q b)) :
    (∃ a ∈ l, P a) ↔ ∃ b ∈ m, Q b := by
  induction h with
  | nil => simp
  | cons hab _ ih => rw [List.exists_mem_cons_iff, List.exists_mem_cons_iff, ih, hcongr hab]

namespace Entities

/-! ## Pieces -/

/-- The pieces of all arguments, in order. -/
def pieces (entities : List String) : List (List Char) :=
  entities.flatMap fun entity => entity.toList.splitOn ','

/-- Whether a piece has an equals sign, and before the first one a key that is not blank. -/
def Keyed (piece : List Char) : Prop :=
  ∃ key text, piece = key ++ '=' :: text ∧ '=' ∉ key ∧ stripped (String.ofList key) ≠ ""

/-- Whether a piece has an equals sign, and nothing but blanks before the first one. -/
def BlankKeyed (piece : List Char) : Prop :=
  ∃ key text, piece = key ++ '=' :: text ∧ '=' ∉ key ∧ key ≠ [] ∧ stripped (String.ofList key) = ""

/-- Whether a text is an integer that 64 bits do not hold, though short enough to be read. -/
def WideText (s : String) (i : Int) : Prop :=
  toString i = s ∧ digitCount i.natAbs ≤ numeralLimit ∧ ¬ (-2 ^ 63 ≤ i ∧ i < 2 ^ 63)

/-- Whether a piece has a key, if only a blank one, and the text of such an integer. -/
def Wide (piece : List Char) : Prop :=
  ∃ key text i, piece = key ++ '=' :: text ∧ '=' ∉ key ∧ key ≠ [] ∧
    WideText (stripped (String.ofList text)) i

/-- Whether a piece has a key that is not blank and a text that a field can hold. -/
def Sound (piece : List Char) : Prop := Keyed piece ∧ ¬ Wide piece

/-- What a piece is refused for. -/
inductive RefusedFor : List Char → Failure → Prop where
  | noPair {piece : List Char} : NoPair piece → RefusedFor piece (.entity (String.ofList piece))
  | wide {key text : List Char} {i : Int} : '=' ∉ key → key ≠ [] →
    WideText (stripped (String.ofList text)) i →
      RefusedFor (key ++ '=' :: text) (.inference (.unsupported (.wideInteger i)))

/-- Whether a piece is refused. -/
def Refused (piece : List Char) : Prop := ∃ why, RefusedFor piece why

theorem splitAt_eq_splitOn (separator : Char) (cs : List Char) :
    splitAt separator cs = cs.splitOn separator := by
  induction cs with
  | nil => rfl
  | cons c cs ih =>
    rw [List.splitOn, List.splitOnP_cons_eq_if_modifyHead, ← List.splitOn, ← ih, splitAt]
    simp only [beq_iff_eq]
    split
    · rfl
    · cases hsplit : splitAt separator cs with
      | cons piece pieces => rfl
      | nil =>
        rw [ih] at hsplit
        exact absurd hsplit (List.splitOn_ne_nil separator cs)

/-- A piece is no pair, or there is a key before its first equals sign. -/
theorem noPair_or_pair (piece : List Char) :
    NoPair piece ∨ ∃ key text, piece = key ++ '=' :: text ∧ '=' ∉ key ∧ key ≠ [] := by
  by_cases hequals : '=' ∈ piece
  · obtain ⟨key, text, rfl, hkey⟩ := List.eq_append_cons_of_mem hequals
    by_cases hnil : key = []
    · exact .inl (.inr (by simp [hnil]))
    · exact .inr ⟨key, text, rfl, hkey, hnil⟩
  · exact .inl (.inl hequals)

section Pair

variable {key text : List Char} (hequals : '=' ∉ key)

include hequals

theorem pair?_pair (hne : key ≠ []) : pair? (key ++ '=' :: text) = some (key, text) := by
  rw [pair?, dropWhile_ne_append hequals, takeWhile_ne_append hequals]
  exact if_neg hne

theorem not_noPair_pair (hne : key ≠ []) : ¬ NoPair (key ++ '=' :: text) := by
  rw [← pair?_eq_none_iff, pair?_pair hequals hne]
  nofun

/-- A piece is divided at its first equals sign in one way only. -/
theorem pair_unique {key' text' : List Char} (hequals' : '=' ∉ key')
    (h : key ++ '=' :: text = key' ++ '=' :: text') : key = key' ∧ text = text' := by
  have hkey := congrArg (List.takeWhile (· ≠ '=')) h
  have htext := congrArg (List.dropWhile (· ≠ '=')) h
  rw [takeWhile_ne_append hequals, takeWhile_ne_append hequals'] at hkey
  rw [dropWhile_ne_append hequals, dropWhile_ne_append hequals'] at htext
  exact ⟨hkey, (List.cons.inj htext).2⟩

theorem keyed_pair_iff : Keyed (key ++ '=' :: text) ↔ stripped (String.ofList key) ≠ "" := by
  constructor
  · rintro ⟨key', text', heq, hequals', hkey⟩
    obtain ⟨rfl, -⟩ := pair_unique hequals hequals' heq
    exact hkey
  · exact fun h => ⟨key, text, rfl, hequals, h⟩

theorem wide_pair_iff (hne : key ≠ []) :
    Wide (key ++ '=' :: text) ↔ ∃ i, WideText (stripped (String.ofList text)) i := by
  constructor
  · rintro ⟨key', text', i, heq, hequals', -, hwide⟩
    obtain ⟨-, rfl⟩ := pair_unique hequals hequals' heq
    exact ⟨i, hwide⟩
  · exact fun ⟨i, hwide⟩ => ⟨key, text, i, rfl, hequals, hne, hwide⟩

end Pair

theorem Keyed.not_noPair {piece : List Char} (h : Keyed piece) : ¬ NoPair piece := by
  obtain ⟨key, text, rfl, hequals, hkey⟩ := h
  refine not_noPair_pair hequals ?_
  rintro rfl
  exact hkey rfl

/-- What is refused has no pair or the text of a wide integer. -/
theorem refused_iff {piece : List Char} : Refused piece ↔ NoPair piece ∨ Wide piece := by
  constructor
  · rintro ⟨why, hno | ⟨hequals, hne, hwide⟩⟩
    · exact .inl hno
    · exact .inr ⟨_, _, _, rfl, hequals, hne, hwide⟩
  · rintro (hno | ⟨key, text, i, rfl, hequals, hne, hwide⟩)
    · exact ⟨_, .noPair hno⟩
    · exact ⟨_, .wide hequals hne hwide⟩

/-! ## One piece -/

theorem storable_iff {s : String} : Storable s ↔ ∀ i, ¬ WideText s i := by
  constructor
  · rintro h i ⟨rfl, hlimit, hwide⟩
    have hinteger :=
      integerText_iff.2 ⟨i, scalarInt?_eq_some_iff.2 ⟨rfl, numeralTooLong_eq_false_iff.2 hlimit⟩⟩
    obtain ⟨j, hj, hfits⟩ := h hinteger
    obtain rfl :=
      Int.repr_injective
        (by rw [← Int.toString_eq_repr, ← Int.toString_eq_repr, hj] : j.repr = i.repr)
    exact hwide hfits
  · intro h hinteger
    obtain ⟨i, hi⟩ := integerText_iff.1 hinteger
    obtain ⟨rfl, hlimit⟩ := scalarInt?_eq_some_iff.1 hi
    refine ⟨i, rfl, ?_⟩
    by_contra hwide
    exact h i ⟨rfl, numeralTooLong_eq_false_iff.1 hlimit, hwide⟩

theorem sound_pair_iff {key text : List Char} (hequals : '=' ∉ key) :
    Sound (key ++ '=' :: text) ↔
      stripped (String.ofList key) ≠ "" ∧ Storable (stripped (String.ofList text)) := by
  rw [Sound, keyed_pair_iff hequals, storable_iff]
  refine and_congr_right fun hkey => ?_
  have hne : key ≠ [] := by
    rintro rfl
    exact hkey rfl
  rw [wide_pair_iff hequals hne, not_exists]

/-- A wide integer is taken for a number and refused as one. -/
theorem WideText.infer_scalar {s : String} {i : Int} (h : WideText s i) :
    (scalar s).infer = .error (.unsupported (.wideInteger i)) := by
  obtain ⟨rfl, hlimit, hwide⟩ := h
  have hshort := numeralTooLong_eq_false_iff.2 hlimit
  have hcheck : checkInt64 i = .error (.unsupported (.wideInteger i)) := by
    have hfits : fitsInt64 i = false := by
      rw [fitsInt64, Bool.and_eq_false_iff, decide_eq_false_iff_not, decide_eq_false_iff_not]
      omega
    rw [checkInt64, hfits, hshort]
    rfl
  rw [scalar, scalarInt?_eq_some_iff.2 ⟨rfl, hshort⟩]
  show (((checkInt64 i).map Content.ofInteger).map Value.ofContent) = _
  rw [hcheck]
  rfl

/-- Setting the field of a pair fails only for its value. -/
theorem setPiece_pair {key text : List Char} (hequals : '=' ∉ key) (hne : key ≠ []) (r : Row) :
    setPiece r (key ++ '=' :: text) =
      ((scalar (stripped (String.ofList text))).infer.map fun v =>
        r.store (stripped (String.ofList key)) v none).mapError .inference := by
  rw [setPiece, pair?_pair hequals hne]
  simp only [stripped, String.toList_ofList, Row.set]
  cases (scalar _).infer <;> rfl

theorem setPiece_eq_error_iff {r : Row} {piece : List Char} {why : Failure} :
    setPiece r piece = .error why ↔ RefusedFor piece why := by
  rcases noPair_or_pair piece with hno | ⟨key, text, rfl, hequals, hne⟩
  · rw [setPiece, pair?_eq_none_iff.2 hno]
    constructor
    · intro h
      cases h
      exact .noPair hno
    · intro h
      cases h with
      | noPair => rfl
      | wide hequals hne => exact absurd hno (not_noPair_pair hequals hne)
  · rw [setPiece_pair hequals hne]
    -- a pair fails only in storing its value, and the reason then names the integer
    by_cases hstorable : Storable (stripped (String.ofList text))
    · obtain ⟨w, hw⟩ := exists_infer_scalar hstorable
      rw [hw]
      constructor
      · intro h
        cases h
      · intro h
        have hrefused := refused_iff.1 ⟨why, h⟩
        rw [wide_pair_iff hequals hne] at hrefused
        obtain ⟨i, hwide⟩ := hrefused.resolve_left (not_noPair_pair hequals hne)
        exact absurd hwide (storable_iff.1 hstorable i)
    · rw [storable_iff] at hstorable
      push Not at hstorable
      obtain ⟨i, hwide⟩ := hstorable
      rw [hwide.infer_scalar]
      constructor
      · intro h
        cases h
        exact .wide hequals hne hwide
      · intro h
        generalize hpiece : key ++ '=' :: text = piece at h
        cases h with
        | noPair hno => exact absurd (hpiece ▸ hno) (not_noPair_pair hequals hne)
        | @wide key' text' j hequals' _ hwide' =>
          obtain ⟨-, rfl⟩ := pair_unique hequals hequals' hpiece
          rw [← Except.error.inj (hwide.infer_scalar.symm.trans hwide'.infer_scalar)]
          rfl

/-! ## Arguments -/

section Accepted

variable {now : Double} {start : Row} (hstart : Row.create now = .ok start)

include hstart

/-- An argument is refused for the first of its pieces that is. -/
theorem row_eq_error_iff {entity : String} {why : Failure} :
    row now entity = .error why ↔
      ∃ piece, FirstWith Refused (entity.toList.splitOn ',') piece ∧ RefusedFor piece why := by
  rw [row, hstart, ← splitAt_eq_splitOn]
  exact foldlM_eq_error_iff (f := setPiece) setPiece_eq_error_iff

theorem exists_row_iff {entity : String} :
    (∃ r, row now entity = .ok r) ↔ ∀ piece ∈ entity.toList.splitOn ',', ¬ Refused piece := by
  have hrefused : (∃ why, row now entity = .error why) ↔
      ∃ piece ∈ entity.toList.splitOn ',', Refused piece := by
    rw [← FirstWith.exists_iff]
    constructor
    · rintro ⟨why, hwhy⟩
      obtain ⟨piece, hfirst, -⟩ := (row_eq_error_iff hstart).1 hwhy
      exact ⟨piece, hfirst⟩
    · rintro ⟨piece, hfirst⟩
      obtain ⟨why, hwhy⟩ := hfirst.holds
      exact ⟨why, (row_eq_error_iff hstart).2 ⟨piece, hfirst, hwhy⟩⟩
  rw [Except.exists_ok_iff, hrefused]
  push Not
  rfl

theorem exists_rows_iff {entities : List String} :
    (∃ rs, rows now entities = .ok rs) ↔ ∀ piece ∈ pieces entities, ¬ Refused piece := by
  rw [rows, exists_mapM_eq_ok_iff]
  simp only [exists_row_iff hstart, pieces, List.mem_flatMap, forall_exists_index, and_imp]
  exact ⟨fun h piece entity hentity => h entity hentity piece,
    fun h entity hentity piece => h piece entity hentity⟩

/-- Arguments are refused for the first of their pieces that is. -/
theorem rows_eq_error_iff {entities : List String} {why : Failure} :
    rows now entities = .error why ↔
      ∃ piece, FirstWith Refused (pieces entities) piece ∧ RefusedFor piece why := by
  induction entities with
  | nil => exact ⟨fun h => (nomatch h), fun ⟨_, h, _⟩ => (nomatch h)⟩
  | cons entity entities ih =>
    have hcons : rows now (entity :: entities) = .error why ↔
        row now entity = .error why ∨
          (∃ r, row now entity = .ok r) ∧ rows now entities = .error why :=
      mapM_cons_eq_error_iff
    rw [hcons, ih, row_eq_error_iff hstart, exists_row_iff hstart]
    simp only [pieces, List.flatMap_cons, FirstWith.append_iff, or_and_right, exists_or, and_assoc,
      exists_and_left]

end Accepted

/-! ## Rows -/

theorem forall₂_piece_of_writes {cs : List Char} {ps : List (String × String)} (h : Writes cs ps) :
    List.Forall₂ Piece (cs.splitOn ',') ps := by
  rw [← splitAt_eq_splitOn]
  induction h with
  | last hpiece =>
    rw [splitAt_of_not_mem hpiece.not_mem]
    exact .cons hpiece .nil
  | more hpiece _ ih =>
    rw [splitAt_append hpiece.not_mem]
    exact .cons hpiece ih

theorem Piece.nameless_iff {piece : List Char} {p : String × String} (h : Piece piece p) :
    BlankKeyed piece ↔ p.1 = "" := by
  obtain @⟨key, text, hne, hequals, -, -⟩ := h
  have hkey : key.toList ≠ [] := fun h => hne (String.toList_eq_nil_iff.1 h)
  constructor
  · rintro ⟨key', text', heq, hequals', -, hblank⟩
    obtain ⟨rfl, -⟩ := pair_unique hequals hequals' heq
    rwa [String.ofList_toList] at hblank
  · intro hblank
    refine ⟨key.toList, text.toList, rfl, hequals, hkey, ?_⟩
    rwa [String.ofList_toList]

/-- Whether a row is made of an argument. -/
def IsRowOf (entity : String) (r : Row) : Prop := ∃ ps, Writes entity.toList ps ∧ r.Holds ps

/-- A row has a field without a name if a key in its argument is blank, and otherwise not. -/
theorem IsRowOf.nameless_iff {entity : String} {r : Row} (h : IsRowOf entity r) :
    "" ∈ r.fields.keys ↔ ∃ piece ∈ entity.toList.splitOn ',', BlankKeyed piece := by
  obtain ⟨ps, hwrites, hholds⟩ := h
  rw [hholds.keys, List.mem_eraseDups,
    exists_mem_congr (forall₂_piece_of_writes hwrites) fun h => h.nameless_iff]
  simp

theorem forall₂_isRowOf {now : Double} {entities : List String} {rs : List Row}
    (h : rows now entities = .ok rs) :
    List.Forall₂ IsRowOf entities rs := by
  refine (mapM_eq_ok_iff.1 h).imp fun entity r hrow => ?_
  have hwellFormed := not_malformed_of_row hrow
  rw [Malformed] at hwellFormed
  push Not at hwellFormed
  obtain ⟨ps, hwrites⟩ := exists_writes hwellFormed
  exact ⟨ps, hwrites, holds_of_row hrow hwrites⟩

theorem nameless_iff {entities : List String} {rs : List Row}
    (h : List.Forall₂ IsRowOf entities rs) :
    (∃ r ∈ rs, "" ∈ r.fields.keys) ↔ ∃ piece ∈ pieces entities, BlankKeyed piece := by
  rw [← exists_mem_congr h fun h => h.nameless_iff.symm]
  simp only [pieces, List.mem_flatMap]
  constructor
  · rintro ⟨entity, hentity, piece, hpiece, hblank⟩
    exact ⟨piece, ⟨entity, hentity, hpiece⟩, hblank⟩
  · rintro ⟨piece, ⟨entity, hentity, hpiece⟩, hblank⟩
    exact ⟨entity, hentity, piece, hpiece, hblank⟩

/-! ## What should be accepted -/

/-- Whether a failure is one of the argument and quotes a piece of it. -/
structure Quotes (why : Failure) (piece : List Char) : Prop where
  kind : why.kind = .badArgument
  message : why.message? = some ("Entity must be key=value, got '" ++ String.ofList piece ++ "'")

/-- What should come of arguments: they are accepted exactly if all of their pieces have keys, each
then makes a row with what it writes in fields that have names, and otherwise the first piece
without a key is named. -/
structure AsPromised (entities : List String) (outcome : Except Failure (List Row)) : Prop where
  accepts : (∃ rs, outcome = .ok rs) ↔ ∀ piece ∈ pieces entities, Keyed piece
  rows : ∀ rs, outcome = .ok rs → List.Forall₂ IsRowOf entities rs ∧ ∀ r ∈ rs, "" ∉ r.fields.keys
  refuses : ∀ piece, FirstWith (¬ Keyed ·) (pieces entities) piece →
    ∃ why, outcome = .error why ∧ Quotes why piece

theorem exists_entity_of_kind {why : Failure} (h : why.kind = .badArgument) :
    ∃ piece, why = .entity piece := by
  cases why with
  | entity piece => exact ⟨piece, rfl⟩
  | conversion fault => cases fault <;> cases h
  | inference fault => cases fault <;> cases h
  | status fault => cases fault <;> cases h
  | moment fault =>
    cases fault with
    | notWhole fault => cases fault <;> cases h
    | _ => cases h
  | references fault => cases fault <;> cases h
  | settings fault => cases fault <;> cases h
  | _ => cases h

theorem quotes_iff {why : Failure} {piece : List Char} :
    Quotes why piece ↔ why = .entity (String.ofList piece) := by
  constructor
  · rintro ⟨hkind, hmessage⟩
    obtain ⟨shown, rfl⟩ := exists_entity_of_kind hkind
    have htext := Option.some.inj hmessage
    rw [← String.toList_inj] at htext
    simp only [String.toList_append, List.append_cancel_right_eq, List.append_cancel_left_eq,
      String.toList_inj] at htext
    rw [htext]
  · rintro rfl
    exact ⟨rfl, rfl⟩

theorem quotes_iff_noPair {why : Failure} {piece named : List Char} (h : RefusedFor piece why) :
    Quotes why named ↔ NoPair piece ∧ named = piece := by
  rw [quotes_iff]
  cases h with
  | noPair hno => simp [hno, String.ofList_inj, eq_comm]
  | wide hequals hne => simp [not_noPair_pair hequals hne]

theorem BlankKeyed.not_keyed {piece : List Char} (h : BlankKeyed piece) : ¬ Keyed piece := by
  obtain ⟨key, text, rfl, hequals, -, hblank⟩ := h
  rw [keyed_pair_iff hequals]
  exact not_not.2 hblank

/-- What is sound is not refused. -/
theorem Sound.not_refused {piece : List Char} (h : Sound piece) : ¬ Refused piece := by
  rw [refused_iff, not_or]
  exact ⟨h.1.not_noPair, h.2⟩

section Promised

variable {now : Double} {start : Row} {entities : List String} (hstart : Row.create now = .ok start)

include hstart

/-- Where all pieces are sound, arguments are treated as they should be. -/
theorem asPromised_of_sound (h : ∀ piece ∈ pieces entities, Sound piece) :
    AsPromised entities (rows now entities) := by
  have hkeyed : ∀ piece ∈ pieces entities, Keyed piece := fun piece hpiece => (h piece hpiece).1
  refine ⟨⟨fun _ => hkeyed, fun _ => ?_⟩, fun rs hrs => ?_, fun piece hfirst => ?_⟩
  · exact (exists_rows_iff hstart).2 fun piece hpiece => (h piece hpiece).not_refused
  · have hrows := forall₂_isRowOf hrs
    refine ⟨hrows, fun r hr hname => ?_⟩
    obtain ⟨piece, hpiece, hblank⟩ := (nameless_iff hrows).1 ⟨r, hr, hname⟩
    exact hblank.not_keyed (hkeyed piece hpiece)
  · obtain ⟨named, hnamed, hno⟩ := FirstWith.exists_iff.1 ⟨piece, hfirst⟩
    exact absurd (hkeyed named hnamed) hno

/-- Where the first piece that is not sound is no pair, it is named as it should be. -/
theorem asPromised_of_noPair {piece : List Char}
    (hfirst : FirstWith (¬ Sound ·) (pieces entities) piece) (hno : NoPair piece) :
    AsPromised entities (rows now entities) := by
  have hrefused : FirstWith Refused (pieces entities) piece :=
    hfirst.strengthen (fun b hb hsound => hsound.not_refused hb) (refused_iff.2 (.inl hno))
  have hunkeyed : FirstWith (¬ Keyed ·) (pieces entities) piece :=
    hfirst.strengthen (fun b hb hsound => hb hsound.1) fun hkeyed => hkeyed.not_noPair hno
  have herror := (rows_eq_error_iff hstart).2 ⟨piece, hrefused, .noPair hno⟩
  refine ⟨⟨?_, fun hkeyed => ?_⟩, fun rs hrs => ?_, fun named hnamed => ?_⟩
  · rintro ⟨rs, hrs⟩
    cases herror.symm.trans hrs
  · obtain ⟨named, hnamed, hnot⟩ := FirstWith.exists_iff.1 ⟨piece, hunkeyed⟩
    exact absurd (hkeyed named hnamed) hnot
  · cases herror.symm.trans hrs
  · obtain rfl := hnamed.unique hunkeyed
    exact ⟨_, herror, quotes_iff.2 rfl⟩

/-- Arguments are not treated as they should be where the first piece that is not sound is a
pair. -/
theorem noPair_of_asPromised (h : AsPromised entities (rows now entities)) {piece : List Char}
    (hfirst : FirstWith (¬ Sound ·) (pieces entities) piece) : NoPair piece := by
  by_contra hno
  by_cases hkeyed : Keyed piece
  · -- a wide integer: it is refused as a value, and not as an argument
    have hwide : Wide piece := by
      by_contra hwide
      exact hfirst.holds ⟨hkeyed, hwide⟩
    have hrefused : Refused piece := refused_iff.2 (.inr hwide)
    obtain ⟨why, hwhy⟩ := id hrefused
    have herror := (rows_eq_error_iff hstart).2
      ⟨piece, hfirst.strengthen (fun b hb hsound => hsound.not_refused hb) hrefused, hwhy⟩
    have hall : ∀ named ∈ pieces entities, Keyed named := by
      by_contra hsome
      push Not at hsome
      obtain ⟨named, hnamed⟩ := FirstWith.exists_iff.2 hsome
      obtain ⟨why', herror', hquotes⟩ := h.refuses named hnamed
      obtain rfl := Except.error.inj (herror.symm.trans herror')
      exact hno ((quotes_iff_noPair hwhy).1 hquotes).1
    obtain ⟨rs, hrs⟩ := h.accepts.2 hall
    cases herror.symm.trans hrs
  · -- a blank key: whatever is named, it is another piece
    obtain ⟨why, herror, hquotes⟩ :=
      h.refuses piece (hfirst.strengthen (fun b hb hsound => hb hsound.1) hkeyed)
    obtain ⟨refused, -, hrefused⟩ := (rows_eq_error_iff hstart).1 herror
    obtain ⟨hrefusedNo, rfl⟩ := (quotes_iff_noPair hrefused).1 hquotes
    exact hno hrefusedNo

end Promised

/-- Which arguments are accepted, and what comes of them, for every list of arguments.

They are accepted exactly if no piece of them is refused, and refused for the first one that is. A
piece is refused when it is no pair, and then quoted, or when its text is an integer beyond 64 bits
that is short enough to be read. Accepted arguments make one row each, in order, with what they
write, and a row has a field without a name exactly if a key is blank. All this is as it should be
exactly when the first piece that is not sound, if there is one, is no pair. -/
theorem rows_accepted {now : Double} {start : Row} (hstart : Row.create now = .ok start)
    (entities : List String) :
    ((∃ rs, rows now entities = .ok rs) ↔
      ∀ piece ∈ pieces entities, ¬ (NoPair piece ∨ Wide piece)) ∧
    (∀ why, rows now entities = .error why ↔
      ∃ piece, FirstWith Refused (pieces entities) piece ∧ RefusedFor piece why) ∧
    (∀ piece why, RefusedFor piece why → (Quotes why piece ↔ NoPair piece)) ∧
    (∀ rs, rows now entities = .ok rs → List.Forall₂ IsRowOf entities rs ∧
      ((∃ r ∈ rs, "" ∈ r.fields.keys) ↔ ∃ piece ∈ pieces entities, BlankKeyed piece)) ∧
    (AsPromised entities (rows now entities) ↔
      ∀ piece, FirstWith (¬ Sound ·) (pieces entities) piece → NoPair piece) := by
  refine ⟨?_, fun why => rows_eq_error_iff hstart, fun piece why h => ?_, fun rs hrs => ?_,
    ?_, fun h => ?_⟩
  · simp only [exists_rows_iff hstart, refused_iff]
  · rw [quotes_iff_noPair h]
    exact and_iff_left rfl
  · have hrows := forall₂_isRowOf hrs
    exact ⟨hrows, nameless_iff hrows⟩
  · exact fun h piece hfirst => noPair_of_asPromised hstart h hfirst
  · by_cases hsound : ∃ piece ∈ pieces entities, ¬ Sound piece
    · obtain ⟨piece, hfirst⟩ := FirstWith.exists_iff.2 hsound
      exact asPromised_of_noPair hstart hfirst (h piece hfirst)
    · push Not at hsound
      exact asPromised_of_sound hstart hsound

/-- Of two arguments the second has a piece that is no pair, behind sound ones, and is refused for
it. -/
theorem rows_accepted_second :
    let entities := ["driver_id= 1001 ", "city=berlin,score"]
    Row.create ⟨0x3ff0000000000000⟩ = .ok (.emptyAt (.ofSeconds 1)) ∧
    AsPromised entities (rows ⟨0x3ff0000000000000⟩ entities) ∧
    rows ⟨0x3ff0000000000000⟩ entities = .error (.entity "score") := by
  intro entities
  have hcreate : Row.create ⟨0x3ff0000000000000⟩ = .ok (.emptyAt (.ofSeconds 1)) := by
    decide +kernel
  have hfirst : Sound ("driver_id".toList ++ '=' :: " 1001 ".toList) :=
    (sound_pair_iff (by decide)).2 ⟨by decide, fun _ => ⟨1001, by decide, by decide, by decide⟩⟩
  have hsecond : Sound ("city".toList ++ '=' :: "berlin".toList) := by
    refine (sound_pair_iff (by decide)).2 ⟨by decide, fun hinteger => ?_⟩
    obtain ⟨i, hi⟩ := integerText_iff.1 hinteger
    cases hi.symm.trans
      (by decide +kernel : scalarInt? (stripped (String.ofList "berlin".toList)) = none)
  refine ⟨hcreate,
    (rows_accepted hcreate entities).2.2.2.2.2 fun piece hunsound => ?_, by decide +kernel⟩
  rw [show pieces entities =
    ["driver_id= 1001 ".toList, "city=berlin".toList, "score".toList] by decide +kernel]
    at hunsound
  cases hunsound with
  | here h => exact absurd hfirst h
  | later _ hrest =>
    cases hrest with
    | here h => exact absurd hsecond h
    | later _ hrest =>
      cases hrest with
      | here => exact .inl (by decide)
      | later _ hrest => nomatch hrest

/-- Arguments are not always treated as they should be: a blank key is accepted. -/
theorem rows_blank_key :
    ¬ ∀ now start entities, Row.create now = .ok start →
      AsPromised entities (rows now entities) := by
  intro h
  have hpromised := h ⟨0x3ff0000000000000⟩ (.emptyAt (.ofSeconds 1)) [" =5"] (by decide +kernel)
  have hkeys : (rows ⟨0x3ff0000000000000⟩ [" =5"]).map (·.map (·.fields.keys)) = .ok [[""]] := by
    decide +kernel
  obtain ⟨rs, hrs, -⟩ := Except.map_eq_ok_iff.1 hkeys
  have hblank : BlankKeyed " =5".toList :=
    ⟨[' '], ['5'], by decide, by decide, by decide, by decide⟩
  exact hblank.not_keyed (hpromised.accepts.1 ⟨rs, hrs⟩ _ (by decide +kernel))

end Entities

end OnlineFeatures
