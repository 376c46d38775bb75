import Mathlib.Data.List.Basic
import OnlineFeatures.Settings.EnvFile
import OnlineFeatures.Proofs.OrderedMap

/-!
# Plain files of variables

A file is plain when all of its lines are `NAME=value`, with nothing in them that is read as
anything else: no quotes around, no blanks at the ends, no comment and no variable
(`EnvFile.PlainLine`). What is read from such a file is what its lines say
(`EnvFile.read_of_plain`): each name once, where it first came, with the value of its last line.

The proof follows the reader, which takes one line after the other
(`EnvFile.PlainLine.binding_line`), and then puts the variables in values in their places, of which
a plain value has none (`EnvFile.expandWith_plain`).
-/

namespace OnlineFeatures

namespace EnvFile

/-- A line `NAME=value` that is read as it stands. -/
structure PlainLine (name value : String) : Prop where
  name_ne_nil : name.toList ≠ []
  name_chars : ∀ c ∈ name.toList, c ≠ '=' ∧ c ≠ '#' ∧ isBlank c = false
  name_start : name.toList.head? ≠ some '\''
  value_chars : ∀ c ∈ value.toList, isLineEnd c = false
  value_start : ∀ c ∈ value.toList.head?, isBlank c = false ∧ c ≠ '\'' ∧ c ≠ '"'
  value_stop : ∀ c ∈ value.toList.getLast?, isBlank c = false
  no_comment : ∀ c ∈ value.toList, isBlank c = true → ¬ [c, '#'] <:+: value.toList
  no_variable : ¬ ['$', '\x7b'] <:+: value.toList

/-- The ends of lines in a file. -/
def lineEnds : List (List Char) := [['\n'], ['\r', '\n']]

/-- A text of plain lines, and of empty ones, with the given ends. The last line may have none. -/
inductive Plain (ends : List (List Char)) : List Char → List (String × String) → Prop where
  | nil : Plain ends [] []
  | empty {ending cs : List Char} {lines : List (String × String)} (hending : ending ∈ ends)
    (hrest : Plain ends cs lines) : Plain ends (ending ++ cs) lines
  | last {name value : String} (hline : PlainLine name value) :
    Plain ends (name.toList ++ '=' :: value.toList) [(name, value)]
  | line {name value : String} {ending cs : List Char} {lines : List (String × String)}
    (hline : PlainLine name value) (hending : ending ∈ ends) (hrest : Plain ends cs lines) :
    Plain ends (name.toList ++ '=' :: (value.toList ++ (ending ++ cs))) ((name, value) :: lines)

/-! ## Line ends -/

theorem unifyLineEnds_cons {c : Char} (h : c ≠ '\r') (cs : List Char) :
    unifyLineEnds (c :: cs) = c :: unifyLineEnds cs := by
  rw [unifyLineEnds]
  · exact fun _ hc _ => h hc
  · exact h

theorem unifyLineEnds_append {cs : List Char} (h : '\r' ∉ cs) (rest : List Char) :
    unifyLineEnds (cs ++ rest) = cs ++ unifyLineEnds rest := by
  induction cs with
  | nil => rfl
  | cons c cs ih =>
    obtain ⟨hc, hcs⟩ := not_or.1 (mt List.mem_cons.2 h)
    rw [List.cons_append, unifyLineEnds_cons (Ne.symm hc), ih hcs, List.cons_append]

theorem unifyLineEnds_ending {ending : List Char} (h : ending ∈ lineEnds) (rest : List Char) :
    unifyLineEnds (ending ++ rest) = '\n' :: unifyLineEnds rest := by
  have hending : ending = ['\n'] ∨ ending = ['\r', '\n'] := by simpa [lineEnds] using h
  rcases hending with rfl | rfl
  · exact unifyLineEnds_cons (by decide) rest
  · rw [List.cons_append, List.cons_append, unifyLineEnds]
    rfl

namespace PlainLine

variable {name value : String} (h : PlainLine name value)

include h

theorem not_mem_name : '\r' ∉ name.toList := by
  intro hmem
  have hblank := (h.name_chars _ hmem).2.2
  revert hblank
  decide

theorem not_mem_value : '\r' ∉ value.toList := by
  intro hmem
  have hend := h.value_chars _ hmem
  revert hend
  decide

theorem unifyLineEnds_line (rest : List Char) :
    unifyLineEnds (name.toList ++ '=' :: (value.toList ++ rest)) =
      name.toList ++ '=' :: (value.toList ++ unifyLineEnds rest) := by
  rw [unifyLineEnds_append h.not_mem_name, unifyLineEnds_cons (by decide),
    unifyLineEnds_append h.not_mem_value]

end PlainLine

/-- All ends of a plain text become line feeds, and its lines stay. -/
theorem Plain.unify {cs : List Char} {lines : List (String × String)}
    (h : Plain lineEnds cs lines) :
    Plain [['\n']] (unifyLineEnds cs) lines := by
  induction h with
  | nil => exact .nil
  | empty hending _ ih =>
    rw [unifyLineEnds_ending hending]
    exact .empty (List.mem_singleton_self _) ih
  | @last name value hline =>
    have hsame := hline.unifyLineEnds_line []
    rw [unifyLineEnds, List.append_nil] at hsame
    rw [hsame]
    exact .last hline
  | line hline hending _ ih =>
    rw [hline.unifyLineEnds_line, unifyLineEnds_ending hending]
    exact .line hline (List.mem_singleton_self _) ih

/-! ## One line -/

section OneLine

variable {p : Char → Bool} {cs rest : List Char}

theorem takeWhile_of_head (h : ∀ c ∈ rest.head?, p c = false) : rest.takeWhile p = [] := by
  cases rest with
  | nil => rfl
  | cons c rest => simp [h c rfl]

theorem dropWhile_of_head (h : ∀ c ∈ rest.head?, p c = false) : rest.dropWhile p = rest := by
  cases rest with
  | nil => rfl
  | cons c rest => simp [h c rfl]

/-- Passing over characters of a class ends where they end. -/
theorem span_append (hcs : ∀ c ∈ cs, p c = true) (h : ∀ c ∈ rest.head?, p c = false) :
    (cs ++ rest).takeWhile p = cs ∧ (cs ++ rest).dropWhile p = rest := by
  rw [List.takeWhile_append_of_pos hcs, List.dropWhile_append_of_pos hcs, takeWhile_of_head h,
    dropWhile_of_head h, List.append_nil]
  exact ⟨rfl, rfl⟩

/-- Text without comments stands whole before its comment. -/
theorem beforeComment_eq_self (h : ∀ c ∈ cs, isBlank c = true → ¬ [c, '#'] <:+: cs) :
    beforeComment cs = cs := by
  induction cs with
  | nil => rfl
  | cons c r ih =>
    have hhere : ¬ (isBlank c && decide (r.head? = some '#')) = true := by
      intro hcomment
      obtain ⟨hblank, hsign⟩ := Bool.and_eq_true_iff.1 hcomment
      obtain ⟨after, rfl⟩ := List.head?_eq_some_iff.1 (of_decide_eq_true hsign)
      exact h c List.mem_cons_self hblank ⟨[], after, rfl⟩
    rw [beforeComment, if_neg hhere, ih]
    intro d hd hblank hinside
    exact h d (List.mem_cons_of_mem c hd) hblank (hinside.trans (List.suffix_cons c r).isInfix)

/-- What follows a plain value: nothing, or the end of its line. -/
def Ends (rest : List Char) : Prop := ∀ c ∈ rest.head?, isLineEnd c = true

theorem lineEnd_of_ends (h : Ends rest) : lineEnd rest = some (rest.drop 1) := by
  cases rest with
  | nil => rfl
  | cons c rest =>
    have hend : isLineEnd c = true := h c rfl
    have hblank : isInlineBlank c = false := by simp [isInlineBlank, hend]
    have hsign : c ≠ '#' := by
      rintro rfl
      exact absurd hend (by decide)
    rw [lineEnd]
    simp [hblank, hsign, hend]

/-- A plain name is no word `export` with a blank behind it. -/
theorem dropExport_of_name (h : ∀ c ∈ cs, c ≠ '=' ∧ c ≠ '#' ∧ isBlank c = false) :
    dropExport (cs ++ '=' :: rest) = cs ++ '=' :: rest := by
  rw [dropExport]
  refine if_neg ?_
  rintro ⟨hword, hblank⟩
  have hsplit := List.take_append_drop "export".toList.length (cs ++ '=' :: rest)
  rw [hword] at hsplit
  generalize (cs ++ '=' :: rest).drop "export".toList.length = after at hsplit hblank
  rcases List.append_eq_append_iff.1 hsplit
    with ⟨between, hname, hafter⟩ | ⟨between, hexport, hrest⟩
  · -- the word is the front of the name, and behind it is the rest of the name or the equals sign
    cases between with
    | nil =>
      rw [hafter] at hblank
      simp [show isInlineBlank '=' = false by decide] at hblank
    | cons c between =>
      have hinside := (h c (hname ▸ List.mem_append_right _ List.mem_cons_self)).2.2
      rw [hafter] at hblank
      simp [isInlineBlank, hinside] at hblank
  · -- the name ends within the word, which has no equals sign
    cases between with
    | nil =>
      rw [List.nil_append] at hrest
      rw [← hrest] at hblank
      simp [show isInlineBlank '=' = false by decide] at hblank
    | cons c between =>
      obtain ⟨rfl, -⟩ := List.cons.inj hrest
      have hmem : '=' ∈ "export".toList := hexport ▸ List.mem_append_right _ List.mem_cons_self
      exact absurd hmem (by decide)

end OneLine

namespace PlainLine

variable {name value : String} (h : PlainLine name value) {rest : List Char}

include h

theorem name_line :
    EnvFile.name (name.toList ++ '=' :: rest) = some (some name.toList, '=' :: rest) := by
  obtain ⟨c, r, hname⟩ := List.exists_cons_of_ne_nil h.name_ne_nil
  have hchars := h.name_chars c (hname ▸ List.mem_cons_self)
  have hstart : c ≠ '\'' := by simpa [hname] using h.name_start
  have hinside (d : Char) (hd : d ∈ name.toList) : (d ≠ '=' && d ≠ '#' && !isBlank d) = true := by
    simpa [and_assoc] using h.name_chars d hd
  have hoff (d : Char) (hd : d ∈ ('=' :: rest).head?) :
      (d ≠ '=' && d ≠ '#' && !isBlank d) = false := by
    cases hd
    rfl
  rw [EnvFile.name]
  · simp only [(span_append hinside hoff).1, (span_append hinside hoff).2, if_neg h.name_ne_nil]
  · intro r' hr'
    rw [hname] at hr'
    exact hchars.2.1 (List.cons.inj hr').1
  · intro r' hr'
    rw [hname] at hr'
    exact hstart (List.cons.inj hr').1

theorem bareValue_line (hrest : Ends rest) :
    bareValue (value.toList ++ rest) = (value.toList, rest) := by
  have hinside (c : Char) (hc : c ∈ value.toList) : (!isLineEnd c) = true := by
    simp [h.value_chars c hc]
  have hoff (c : Char) (hc : c ∈ rest.head?) : (!isLineEnd c) = false := by simp [hrest c hc]
  have hstop : value.toList.reverse.dropWhile isBlank = value.toList.reverse := by
    refine dropWhile_of_head ?_
    rw [List.head?_reverse]
    exact h.value_stop
  rw [bareValue, (span_append hinside hoff).1, (span_append hinside hoff).2,
    beforeComment_eq_self h.no_comment, hstop, List.reverse_reverse]

/-- What stands behind the equals sign of a plain line is no quote, and a blank only if it ends the
line. -/
theorem head_line (hrest : Ends rest) {c : Char} (hc : c ∈ (value.toList ++ rest).head?) :
    isInlineBlank c = false ∧ c ≠ '\'' ∧ c ≠ '"' := by
  cases hvalue : value.toList with
  | nil =>
    rw [hvalue, List.nil_append] at hc
    have hend := hrest c hc
    refine ⟨by simp [isInlineBlank, hend], ?_, ?_⟩
    · rintro rfl
      exact absurd hend (by decide)
    · rintro rfl
      exact absurd hend (by decide)
  | cons d r =>
    rw [hvalue, List.cons_append] at hc
    cases hc
    obtain ⟨hblank, hquotes⟩ := h.value_start c (by rw [hvalue]; rfl)
    exact ⟨by simp [isInlineBlank, hblank], hquotes⟩

theorem value_line (hrest : Ends rest) :
    EnvFile.value (value.toList ++ rest) = some (value.toList, rest) := by
  rw [← h.bareValue_line hrest, EnvFile.value]
  · intro r hr
    exact (h.head_line hrest (c := '\'') (by rw [hr]; rfl)).2.1 rfl
  · intro r hr
    exact (h.head_line hrest (c := '"') (by rw [hr]; rfl)).2.2 rfl

/-- The binding of a plain line is what it says. -/
theorem binding_line (hrest : Ends rest) : binding (name.toList ++ '=' :: (value.toList ++ rest)) =
    (some (name.toList, some value.toList), rest.drop 1) := by
  have hsign : ('=' :: (value.toList ++ rest)).dropWhile isInlineBlank =
      '=' :: (value.toList ++ rest) :=
    dropWhile_of_head fun c hc => by cases hc; decide
  have hvalue : (value.toList ++ rest).dropWhile isInlineBlank = value.toList ++ rest :=
    dropWhile_of_head fun c hc => (h.head_line hrest hc).1
  rw [binding, dropExport_of_name h.name_chars, h.name_line]
  simp only [hsign, hvalue, h.value_line hrest, lineEnd_of_ends hrest, Option.map_some]

end PlainLine

/-! ## All lines -/

theorem bindingsWith_blank {c : Char} (h : isBlank c = true) (fuel : Nat) (cs : List Char) :
    bindingsWith fuel (c :: cs) = bindingsWith fuel cs := by
  cases fuel with
  | zero => rfl
  | succ fuel => rw [bindingsWith, bindingsWith, List.dropWhile_cons_of_pos h]

theorem bindingsWith_line {name value : String} (h : PlainLine name value) {rest : List Char}
    (hrest : Ends rest) (fuel : Nat) :
    bindingsWith (fuel + 1) (name.toList ++ '=' :: (value.toList ++ rest)) =
      (name.toList, some value.toList) :: bindingsWith fuel (rest.drop 1) := by
  have hbinding := h.binding_line hrest
  obtain ⟨c, r, hname⟩ := List.exists_cons_of_ne_nil h.name_ne_nil
  have hblank : isBlank c = false := (h.name_chars c (hname ▸ List.mem_cons_self)).2.2
  rw [hname, List.cons_append] at hbinding ⊢
  rw [bindingsWith, List.dropWhile_cons_of_neg (by simp [hblank])]
  simp only [hbinding, Option.toList_some, List.singleton_append]

/-- The bindings of a plain text are what its lines say. Every line takes one unit of fuel and has
at least one character. -/
theorem bindingsWith_of_plain {cs : List Char} {lines : List (String × String)}
    (h : Plain [['\n']] cs lines) {fuel : Nat} (hfuel : cs.length < fuel) :
    bindingsWith fuel cs = lines.map fun line => (line.1.toList, some line.2.toList) := by
  -- each line takes one unit of fuel and at least one character
  induction h generalizing fuel with
  | nil =>
    cases fuel <;> rfl
  | empty hending _ ih =>
    rw [List.mem_singleton.1 hending] at hfuel ⊢
    rw [List.singleton_append, bindingsWith_blank (by decide)]
    exact ih (by simp at hfuel; omega)
  | @last name value hline =>
    obtain ⟨fuel, rfl⟩ := Nat.exists_eq_add_one_of_ne_zero (Nat.ne_of_gt (Nat.zero_lt_of_lt hfuel))
    have hends : Ends [] := by rintro c ⟨⟩
    have hread := bindingsWith_line hline hends fuel
    rw [List.append_nil] at hread
    rw [hread]
    cases fuel <;> rfl
  | line hline hending _ ih =>
    rw [List.mem_singleton.1 hending] at hfuel ⊢
    obtain ⟨fuel, rfl⟩ := Nat.exists_eq_add_one_of_ne_zero (Nat.ne_of_gt (Nat.zero_lt_of_lt hfuel))
    rw [bindingsWith_line hline (by rintro c ⟨⟩; decide), List.map_cons]
    refine congrArg _ (ih ?_)
    simp at hfuel
    omega

theorem Plain.lines_plain {ends : List (List Char)} {cs : List Char}
    {lines : List (String × String)} (h : Plain ends cs lines) :
    ∀ line ∈ lines, PlainLine line.1 line.2 := by
  induction h with
  | nil => simp
  | empty _ _ ih => exact ih
  | last hline => simpa using hline
  | line hline _ _ ih => exact List.forall_mem_cons.2 ⟨hline, ih⟩

/-! ## Variables in values -/

/-- A text without variables stays as it is. -/
theorem expandWith_plain (lookUp : String → Option String) {cs : List Char}
    (h : ¬ ['$', '\x7b'] <:+: cs) {fuel : Nat} (hfuel : cs.length < fuel) :
    expandWith lookUp fuel cs = cs := by
  induction cs generalizing fuel with
  | nil =>
    cases fuel <;> rfl
  | cons c r ih =>
    obtain ⟨fuel, rfl⟩ := Nat.exists_eq_add_one_of_ne_zero (Nat.ne_of_gt (Nat.zero_lt_of_lt hfuel))
    have hhere : (if c = '$' then placeholder? r else none) = none := by
      split
      · rename_i hdollar
        rw [placeholder?]
        rintro after rfl
        exact h ⟨[], after, by rw [hdollar]; rfl⟩
      · rfl
    have hinside : ¬ ['$', '\x7b'] <:+: r := fun hr => h (hr.trans (List.suffix_cons c r).isInfix)
    rw [expandWith, hhere]
    simp only [ih hinside (Nat.lt_of_succ_lt_succ hfuel)]

/-! ## A whole file -/

/-- What is read from a plain file is what its lines say, whatever the environment. -/
theorem read_of_plain {text : String} {lines : List (String × String)}
    (h : Plain lineEnds text.toList lines) (environment : List (String × String)) :
    read environment text = .ofList (lines.map fun line => (line.1, some line.2)) := by
  have hbindings : bindings text = lines.map fun line => (line.1.toList, some line.2.toList) :=
    bindingsWith_of_plain h.unify (Nat.lt_succ_self _)
  rw [read, hbindings, OrderedMap.ofList, List.foldl_map, List.foldl_map]
  refine List.foldl_ext _ _ _ fun m line hline => ?_
  obtain ⟨name, value⟩ := line
  have hplain := (h.lines_plain _ hline).no_variable
  simp only [Option.map_some, expandWith_plain _ hplain (Nat.lt_succ_self _), String.ofList_toList]

end EnvFile

end OnlineFeatures
