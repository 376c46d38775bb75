import OnlineFeatures.Proofs.Text.JsonGrammar

/-!
# JSON texts are read in one way

A text denotes at most one tree (`JsonGrammar.Denotes.unique`). The proof compares two readings from
the left: if a value with something behind it is also another value with something behind it, then
the values are equal and so is what is left (`JsonGrammar.ValueText.readAs`). What is behind a value
must not continue a number, and blanks and marks do not.
-/

namespace OnlineFeatures

namespace JsonGrammar

open Numeral (IsPart)

/-! ## Blanks and ends -/

/-- The rest of a text behind the blanks it begins with. -/
def skip (cs : List Char) : List Char := cs.dropWhile isSpace

theorem skip_append {left : List Char} (h : Blank left) (cs : List Char) :
    skip (left ++ cs) = skip cs :=
  List.dropWhile_append_of_pos h

theorem skip_cons {c : Char} (h : isSpace c = false) (cs : List Char) : skip (c :: cs) = c :: cs :=
  List.dropWhile_cons_of_neg (by simp [h])

/-- Whether a rest does not continue a number. -/
def Ended (cs : List Char) : Prop := ∀ c ∈ cs.head?, ¬ IsPart c

theorem ended_nil : Ended [] := by simp [Ended]

theorem ended_cons {c : Char} (h : ¬ IsPart c) (cs : List Char) : Ended (c :: cs) := by
  simpa [Ended] using h

theorem not_isPart_of_isSpace {c : Char} (h : isSpace c = true) : ¬ IsPart c := by
  have hcases : c = ' ' ∨ c = '\t' ∨ c = '\n' ∨ c = '\r' := by simpa [isSpace, or_assoc] using h
  obtain rfl | rfl | rfl | rfl := hcases <;> simp [IsPart]

theorem Ended.append {right cs : List Char} (hright : Blank right) (h : Ended cs) :
    Ended (right ++ cs) := by
  cases right with
  | nil => exact h
  | cons c right => exact ended_cons (not_isPart_of_isSpace (hright c List.mem_cons_self)) _

/-! ## Numbers and strings -/

theorem Ended.eq_nil {cs r : List Char} (h : Ended (cs ++ r)) (hcs : ∀ c ∈ cs, IsPart c) :
    cs = [] := by
  cases cs with
  | nil => rfl
  | cons c cs => exact absurd (hcs c List.mem_cons_self) (h c rfl)

theorem Number.unique {cs ds r s : List Char} (hcs : Number cs) (hds : Number ds) (hr : Ended r)
    (hs : Ended s) (h : cs ++ r = ds ++ s) : cs = ds ∧ r = s := by
  rcases List.append_eq_append_iff.1 h with ⟨as, rfl, rfl⟩ | ⟨as, rfl, rfl⟩
  · obtain rfl := hr.eq_nil fun c hc => hds.isPart c (List.mem_append_right _ hc)
    exact ⟨(List.append_nil cs).symm, rfl⟩
  · obtain rfl := hs.eq_nil fun c hc => hcs.isPart c (List.mem_append_right _ hc)
    exact ⟨List.append_nil ds, rfl⟩

theorem shortEscapes_unique : ∀ p ∈ shortEscapes, ∀ q ∈ shortEscapes, p.1 = q.1 → p.2 = q.2 := by
  decide

theorem Piece.unique {cs ds r s : List Char} {ms ns : List Nat} (hcs : Piece cs ms)
    (hds : Piece ds ns) (h : cs ++ r = ds ++ s) : ms = ns ∧ r = s := by
  -- a backslash tells escapes from plain characters, and what is behind it the two kinds of escapes
  cases hcs with
  | plain _ _ hbackslash =>
    cases hds with
    | plain =>
      obtain ⟨rfl, hrest⟩ := List.cons.inj h
      exact ⟨rfl, hrest⟩
    | short | unit => exact absurd (List.cons.inj h).1 hbackslash
  | @short c m hc =>
    cases hds with
    | plain _ _ hbackslash => exact absurd (List.cons.inj h).1.symm hbackslash
    | @short d n hd =>
      obtain ⟨-, hsecond⟩ := List.cons.inj h
      obtain ⟨rfl, hrest⟩ := List.cons.inj hsecond
      obtain rfl : m = n := shortEscapes_unique _ hc _ hd rfl
      exact ⟨rfl, hrest⟩
    | unit =>
      obtain ⟨-, hsecond⟩ := List.cons.inj h
      obtain ⟨rfl, -⟩ := List.cons.inj hsecond
      simp [shortEscapes] at hc
  | unit h₁ h₂ h₃ h₄ =>
    cases hds with
    | plain _ _ hbackslash => exact absurd (List.cons.inj h).1.symm hbackslash
    | short hd =>
      obtain ⟨-, hsecond⟩ := List.cons.inj h
      obtain ⟨rfl, -⟩ := List.cons.inj hsecond
      simp [shortEscapes] at hd
    | unit h₁' h₂' h₃' h₄' =>
      simp only [List.cons_append, List.nil_append, List.cons.injEq, true_and] at h
      obtain ⟨rfl, rfl, rfl, rfl, hrest⟩ := h
      cases h₁.symm.trans h₁'
      cases h₂.symm.trans h₂'
      cases h₃.symm.trans h₃'
      cases h₄.symm.trans h₄'
      exact ⟨rfl, hrest⟩

/-- No piece begins with the quote that ends a string. -/
theorem Piece.ne_quote {cs r s : List Char} {ns : List Nat} (h : Piece cs ns) :
    cs ++ r ≠ '"' :: s := by
  intro heq
  cases h with
  | plain _ hquote => exact hquote (List.cons.inj heq).1
  | short | unit => cases (List.cons.inj heq).1

theorem Characters.unique {cs ds r s : List Char} {ms ns : List Nat} (hcs : Characters cs ms)
    (hds : Characters ds ns) (h : cs ++ '"' :: r = ds ++ '"' :: s) : ms = ns ∧ r = s := by
  induction hcs generalizing ds ns with
  | nil =>
    cases hds with
    | nil => exact ⟨rfl, (List.cons.inj h).2⟩
    | cons hpiece =>
      rw [List.append_assoc] at h
      exact absurd h.symm hpiece.ne_quote
  | cons hpiece _ ih =>
    rw [List.append_assoc] at h
    cases hds with
    | nil => exact absurd h hpiece.ne_quote
    | cons hpiece' hrest =>
      rw [List.append_assoc] at h
      obtain ⟨rfl, h⟩ := hpiece.unique hpiece' h
      obtain ⟨rfl, h⟩ := ih hrest h
      exact ⟨rfl, h⟩

theorem StringText.unique {cs ds r s : List Char} {ms ns : List Nat} (hcs : StringText cs ms)
    (hds : StringText ds ns) (h : cs ++ r = ds ++ s) : ms = ns ∧ r = s := by
  obtain ⟨hcs⟩ := hcs
  obtain ⟨hds⟩ := hds
  simp only [List.cons_append, List.append_assoc, List.nil_append, List.cons.injEq, true_and] at h
  exact hcs.unique hds h

/-! ## Parts between marks -/

/-- Whether a mark can be told from blanks, numbers and commas. -/
structure Closing (c : Char) : Prop where
  not_space : isSpace c = false
  not_isPart : ¬ IsPart c
  ne_comma : c ≠ ','

theorem closing_bracket : Closing ']' := ⟨rfl, by simp [IsPart], by decide⟩

theorem closing_brace : Closing '\x7d' := ⟨rfl, by simp [IsPart], by decide⟩

section Parts

variable {α β : Type} {chars : α → List Char} {tree : α → β} {close : Char}

/-- The parts of an array or an object behind the first, and what is behind the mark that closes
it. -/
def partsBehind (chars : α → List Char) (close : Char) (parts : List α) (right rest : List Char) :
    List Char :=
  parts.flatMap (fun a => ',' :: chars a) ++ (right ++ close :: rest)

variable (hclose : Closing close)

include hclose

theorem ended_partsBehind {parts : List α} {right rest : List Char} (hright : Blank right) :
    Ended (partsBehind chars close parts right rest) := by
  cases parts with
  | nil =>
    rw [partsBehind, List.flatMap_nil, List.nil_append]
    exact Ended.append hright (ended_cons hclose.not_isPart _)
  | cons a parts => exact ended_cons (by simp [IsPart]) _

theorem skip_partsBehind_nil {right : List Char} (hright : Blank right) (rest : List Char) :
    skip (partsBehind chars close [] right rest) = close :: rest := by
  rw [partsBehind, List.flatMap_nil, List.nil_append, skip_append hright,
    skip_cons hclose.not_space]

theorem partsBehind_unique {as bs : List α}
    (hpart : ∀ a ∈ as, ∀ b ∈ bs, ∀ r s, Ended r → Ended s →
      skip (chars a ++ r) = skip (chars b ++ s) →
      tree a = tree b ∧ skip r = skip s) {right right' r s : List Char} (hright : Blank right)
    (hright' : Blank right')
    (h : skip (partsBehind chars close as right r) = skip (partsBehind chars close bs right' s)) :
    as.map tree = bs.map tree ∧ r = s := by
  have hcomma (a : α) (parts : List α) (right rest : List Char) :
      skip (partsBehind chars close (a :: parts) right rest) =
        ',' :: (chars a ++ partsBehind chars close parts right rest) := by
    rw [partsBehind, List.flatMap_cons, List.cons_append, List.cons_append, skip_cons (by rfl),
      List.append_assoc]
    rfl
  -- a comma goes on and the closing character ends, so both readings do the same at each part
  induction as generalizing bs with
  | nil =>
    rw [skip_partsBehind_nil hclose hright] at h
    cases bs with
    | nil =>
      rw [skip_partsBehind_nil hclose hright'] at h
      exact ⟨rfl, (List.cons.inj h).2⟩
    | cons b bs =>
      rw [hcomma] at h
      exact absurd (List.cons.inj h).1 hclose.ne_comma
  | cons a as ih =>
    rw [hcomma] at h
    cases bs with
    | nil =>
      rw [skip_partsBehind_nil hclose hright'] at h
      exact absurd (List.cons.inj h).1.symm hclose.ne_comma
    | cons b bs =>
      rw [hcomma] at h
      obtain ⟨hab, hrest⟩ := hpart a List.mem_cons_self b List.mem_cons_self _ _
        (ended_partsBehind hclose hright) (ended_partsBehind hclose hright')
        (congrArg skip (List.cons.inj h).2)
      obtain ⟨htrees, hrs⟩ :=
        ih (fun a ha b hb => hpart a (List.mem_cons_of_mem _ ha) b (List.mem_cons_of_mem _ hb))
          hrest
      exact ⟨by rw [List.map_cons, List.map_cons, hab, htrees], hrs⟩

/-- Parts that are separated by commas are read in one way if each of them is and if none begins
like the end. -/
theorem parts_unique {as bs : List α}
    (hpart : ∀ a ∈ as, ∀ b ∈ bs, ∀ r s, Ended r → Ended s →
      skip (chars a ++ r) = skip (chars b ++ s) →
      tree a = tree b ∧ skip r = skip s)
    (has : ∀ a ∈ as, ∀ r s, skip (chars a ++ r) ≠ close :: s)
    (hbs : ∀ b ∈ bs, ∀ r s, skip (chars b ++ r) ≠ close :: s) {right right' r s : List Char}
    (hright : Blank right) (hright' : Blank right')
    (h : skip (List.intercalate [','] (as.map chars) ++ (right ++ close :: r)) =
      skip (List.intercalate [','] (bs.map chars) ++ (right' ++ close :: s))) :
    as.map tree = bs.map tree ∧ r = s := by
  have hfirst (a : α) (parts : List α) (right rest : List Char) :
      List.intercalate [','] ((a :: parts).map chars) ++ (right ++ close :: rest) =
        chars a ++ partsBehind chars close parts right rest := by
    rw [List.map_cons, intercalate_cons, List.flatMap_map, List.append_assoc]
    rfl
  have hnone {right : List Char} (hright : Blank right) (rest : List Char) :
      skip (List.intercalate [','] (([] : List α).map chars) ++ (right ++ close :: rest)) =
        close :: rest := by
    exact @skip_partsBehind_nil α chars close hclose right hright rest
  -- the first part has no comma before it; behind it all parts are alike
  cases as with
  | nil =>
    rw [hnone hright] at h
    cases bs with
    | nil =>
      rw [hnone hright'] at h
      exact ⟨rfl, (List.cons.inj h).2⟩
    | cons b bs =>
      rw [hfirst] at h
      exact absurd h.symm (hbs b List.mem_cons_self _ _)
  | cons a as =>
    rw [hfirst] at h
    cases bs with
    | nil =>
      rw [hnone hright'] at h
      exact absurd h (has a List.mem_cons_self _ _)
    | cons b bs =>
      rw [hfirst] at h
      obtain ⟨hab, hrest⟩ := hpart a List.mem_cons_self b List.mem_cons_self _ _
        (ended_partsBehind hclose hright) (ended_partsBehind hclose hright') h
      obtain ⟨htrees, hrs⟩ := partsBehind_unique hclose
        (fun a ha b hb => hpart a (List.mem_cons_of_mem _ ha) b (List.mem_cons_of_mem _ hb))
          hright hright' hrest
      exact ⟨by rw [List.map_cons, List.map_cons, hab, htrees], hrs⟩

end Parts

/-! ## Kinds of values -/

inductive Kind where
  | null | true | false | number | string | array | object
  deriving DecidableEq, Repr

def Tree.kind : Tree → Kind
  | null => .null
  | bool Bool.true => .true
  | bool Bool.false => .false
  | number _ => .number
  | string _ => .string
  | array _ => .array
  | object _ => .object

/-- The kind of the values that begin with a character. -/
def kind? (c : Char) : Option Kind :=
  if c = 'n' then some .null
  else if c = 't' then some .true
  else if c = 'f' then some .false
  else if c = '"' then some .string
  else if c = '[' then some .array
  else if c = '\x7b' then some .object
  else if c = '-' ∨ c.isDigit = true then some .number
  else none

theorem kind?_of_isDigit {c : Char} (h : c.isDigit = true) : kind? c = some .number := by
  have hne {d : Char} (hd : d.isDigit = false) : c ≠ d := by
    rintro rfl
    cases h.symm.trans hd
  rw [kind?, if_neg (hne rfl), if_neg (hne rfl), if_neg (hne rfl), if_neg (hne rfl),
    if_neg (hne rfl), if_neg (hne rfl), if_pos (.inr h)]

theorem kind?_of_isSpace {c : Char} (h : isSpace c = true) : kind? c = none := by
  have hcases : c = ' ' ∨ c = '\t' ∨ c = '\n' ∨ c = '\r' := by simpa [isSpace, or_assoc] using h
  obtain rfl | rfl | rfl | rfl := hcases <;> rfl

theorem Number.exists_head {cs : List Char} (h : Number cs) :
    ∃ c more, cs = c :: more ∧ kind? c = some .number := by
  obtain ⟨negative, hwhole, -, -⟩ := h
  cases negative with
  | true => exact ⟨'-', _, rfl, rfl⟩
  | false =>
    cases hwhole with
    | zero => exact ⟨'0', _, rfl, rfl⟩
    | digits _ h => exact ⟨_, _, rfl, kind?_of_isDigit (h.2 _ List.mem_cons_self)⟩

theorem ValueText.exists_head {cs : List Char} {t : Tree} (h : ValueText cs t) :
    ∃ c more, cs = c :: more ∧ kind? c = some t.kind := by
  cases h with
  | null | true | false | array | object => exact ⟨_, _, rfl, rfl⟩
  | number h => exact h.exists_head
  | string h =>
    obtain ⟨h⟩ := h
    exact ⟨_, _, rfl, rfl⟩

theorem ValueText.kind_unique {cs ds r s : List Char} {t u : Tree} (hcs : ValueText cs t)
    (hds : ValueText ds u) (h : cs ++ r = ds ++ s) : t.kind = u.kind := by
  obtain ⟨c, cs, rfl, hc⟩ := hcs.exists_head
  obtain ⟨d, ds, rfl, hd⟩ := hds.exists_head
  obtain ⟨rfl, -⟩ := List.cons.inj h
  exact Option.some.inj (hc.symm.trans hd)

theorem ValueText.skip_eq {cs : List Char} {t : Tree} (h : ValueText cs t) (r : List Char) :
    skip (cs ++ r) = cs ++ r := by
  obtain ⟨c, cs, rfl, hc⟩ := h.exists_head
  refine skip_cons ?_ _
  rw [Bool.eq_false_iff]
  intro hspace
  cases (kind?_of_isSpace hspace).symm.trans hc

/-! ## Values -/

/-- Whether a text that is a value cannot be taken for another value, whatever is behind it. -/
def ReadAs (cs : List Char) (t : Tree) : Prop :=
  ∀ ⦃ds u r s⦄, ValueText ds u → Ended r → Ended s → cs ++ r = ds ++ s → t = u ∧ r = s

theorem Item.skip_chars {e : Item} (hpadded : e.Padded) (h : ValueText e.text e.tree)
    (r : List Char) :
    skip (e.chars ++ r) = e.text ++ (e.right ++ r) := by
  rw [chars, List.append_assoc, List.append_assoc, skip_append hpadded.1, h.skip_eq]

theorem Item.unique {e f : Item} (he : e.Padded) (hf : f.Padded) (hetext : ValueText e.text e.tree)
    (hftext : ValueText f.text f.tree) (hread : ReadAs e.text e.tree) {r s : List Char}
    (hr : Ended r) (hs : Ended s) (h : skip (e.chars ++ r) = skip (f.chars ++ s)) :
    e.tree = f.tree ∧ skip r = skip s := by
  rw [skip_chars he hetext, skip_chars hf hftext] at h
  obtain ⟨htree, hrest⟩ := hread hftext (hr.append he.2) (hs.append hf.2) h
  exact ⟨htree, by rw [← skip_append he.2, hrest, skip_append hf.2]⟩

theorem Item.ne_bracket {e : Item} (hpadded : e.Padded) (h : ValueText e.text e.tree)
    (r s : List Char) :
    skip (e.chars ++ r) ≠ ']' :: s := by
  rw [skip_chars hpadded h]
  obtain ⟨c, more, htext, hc⟩ := h.exists_head
  rw [htext]
  intro heq
  obtain ⟨rfl, -⟩ := List.cons.inj heq
  cases hc

theorem Entry.skip_chars {m : Entry} (h : m.Named) (r : List Char) :
    skip (m.chars ++ r) = m.name ++ (m.right ++ ':' :: (m.value.chars ++ r)) := by
  rw [chars, List.append_assoc, List.append_assoc, List.append_assoc, List.cons_append,
    skip_append h.1, (ValueText.string h.2.1).skip_eq]

theorem Entry.unique {m n : Entry} (hm : m.Named) (hn : n.Named)
    (hmtext : ValueText m.value.text m.value.tree) (hntext : ValueText n.value.text n.value.tree)
    (hread : ReadAs m.value.text m.value.tree) {r s : List Char} (hr : Ended r) (hs : Ended s)
    (h : skip (m.chars ++ r) = skip (n.chars ++ s)) :
    m.tree = n.tree ∧ skip r = skip s := by
  rw [skip_chars hm, skip_chars hn] at h
  obtain ⟨hunits, hrest⟩ := hm.2.1.unique hn.2.1 h
  have hcolon := congrArg skip hrest
  rw [skip_append hm.2.2.1, skip_append hn.2.2.1, skip_cons rfl, skip_cons rfl] at hcolon
  obtain ⟨htree, hrs⟩ :=
    Item.unique hm.2.2.2 hn.2.2.2 hmtext hntext hread hr hs (congrArg skip (List.cons.inj hcolon).2)
  exact ⟨by rw [tree, tree, hunits, htree], hrs⟩

theorem Entry.ne_brace {m : Entry} (h : m.Named) (r s : List Char) :
    skip (m.chars ++ r) ≠ '\x7d' :: s := by
  rw [skip_chars h]
  obtain ⟨c, more, hname, hc⟩ := (ValueText.string h.2.1).exists_head
  rw [hname]
  intro heq
  obtain ⟨rfl, -⟩ := List.cons.inj heq
  cases hc

/-- What a value is read as is told by its first character, and then by its parts. -/
theorem ValueText.readAs {cs : List Char} {t : Tree} (hcs : ValueText cs t) : ReadAs cs t := by
  -- the first character tells the kind, so the second reading is by the same rule as the first
  induction hcs with
  | null =>
    intro ds u r s hds hr hs h
    have hkind := ValueText.null.kind_unique hds h
    cases hds with
    | null => exact ⟨rfl, List.append_cancel_left h⟩
    | _ => cases hkind
  | true =>
    intro ds u r s hds hr hs h
    have hkind := ValueText.true.kind_unique hds h
    cases hds with
    | true => exact ⟨rfl, List.append_cancel_left h⟩
    | _ => cases hkind
  | false =>
    intro ds u r s hds hr hs h
    have hkind := ValueText.false.kind_unique hds h
    cases hds with
    | false => exact ⟨rfl, List.append_cancel_left h⟩
    | _ => cases hkind
  | number hcs =>
    intro ds u r s hds hr hs h
    have hkind := (ValueText.number hcs).kind_unique hds h
    cases hds with
    | number hds =>
      obtain ⟨rfl, hrs⟩ := hcs.unique hds hr hs h
      exact ⟨rfl, hrs⟩
    | _ => cases hkind
  | string hcs =>
    intro ds u r s hds hr hs h
    have hkind := (ValueText.string hcs).kind_unique hds h
    cases hds with
    | string hds =>
      obtain ⟨rfl, hrs⟩ := hcs.unique hds h
      exact ⟨rfl, hrs⟩
    | _ => cases hkind
  | array items hleft hpadded htext hright ih =>
    intro ds u r s hds hr hs h
    have hkind := (ValueText.array items hleft hpadded htext hright).kind_unique hds h
    cases hds with
    | array items' hleft' hpadded' htext' hright' =>
      simp only [List.cons_append, List.append_assoc, List.nil_append, List.cons.injEq, true_and]
        at h
      -- behind the bracket both go on with their parts, of which each is read as one only
      have hbracket := congrArg skip h
      rw [skip_append hleft, skip_append hleft'] at hbracket
      obtain ⟨htrees, hrs⟩ := parts_unique closing_bracket
        (fun e he f hf _ _ hr hs =>
          Item.unique (hpadded e he) (hpadded' f hf) (htext e he) (htext' f hf) (ih e he) hr hs)
        (fun e he => Item.ne_bracket (hpadded e he) (htext e he))
        (fun f hf => Item.ne_bracket (hpadded' f hf) (htext' f hf)) hright hright' hbracket
      exact ⟨congrArg Tree.array htrees, hrs⟩
    | _ => cases hkind
  | object members hleft hnamed htext hright ih =>
    intro ds u r s hds hr hs h
    have hkind := (ValueText.object members hleft hnamed htext hright).kind_unique hds h
    cases hds with
    | object members' hleft' hnamed' htext' hright' =>
      simp only [List.cons_append, List.append_assoc, List.nil_append, List.cons.injEq, true_and]
        at h
      have hbrace := congrArg skip h
      rw [skip_append hleft, skip_append hleft'] at hbrace
      obtain ⟨htrees, hrs⟩ := parts_unique closing_brace
        (fun m hm n hn _ _ hr hs => Entry.unique (hnamed m hm) (hnamed' n hn) (htext m hm)
          (htext' n hn) (ih m hm) hr hs)
        (fun m hm => Entry.ne_brace (hnamed m hm))
        (fun n hn => Entry.ne_brace (hnamed' n hn)) hright hright' hbrace
      exact ⟨congrArg Tree.object htrees, hrs⟩
    | _ => cases hkind

/-- A text denotes at most one tree. -/
theorem Denotes.unique {cs : List Char} {t u : Tree} (ht : Denotes cs t) (hu : Denotes cs u) :
    t = u := by
  generalize hcs : cs = ds at hu
  obtain ⟨e, he, hetext⟩ := ht
  obtain ⟨f, hf, hftext⟩ := hu
  exact (Item.unique he hf hetext hftext hetext.readAs ended_nil ended_nil (by rw [hcs])).1

end JsonGrammar

end OnlineFeatures
