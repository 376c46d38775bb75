import OnlineFeatures.Proofs.Cli.Scalars
import OnlineFeatures.Proofs.Text.JsonReading
import OnlineFeatures.Proofs.Text.JsonWalk

/-!
# JSON text that is written

The text of a value without infinities and NaN denotes the value itself, and nothing else: its
strings by their characters, its members under their names and in their order (`Json.denotes_iff`).
A value that holds an infinity or a NaN, at whatever depth, has a text that is not in the grammar at
all, since such a float is written with a bare name (`Json.finite_or_refused`).
-/

namespace OnlineFeatures

open JsonGrammar

/-! ## Hexadecimal digits -/

theorem hexChars_succ {width : Nat} (hwidth : 0 < width) (n : Nat) :
    hexChars (width + 1) n = hexChars width (n / 16) ++ [(n % 16).digitChar] := by
  simp only [hexChars]
  rcases Nat.lt_or_ge n 16 with hlt | hge
  · obtain ⟨width, rfl⟩ : ∃ k, width = k + 1 := ⟨width - 1, by omega⟩
    rw [Nat.div_eq_of_lt hlt, Nat.mod_eq_of_lt hlt, Nat.toDigits_of_lt_base hlt,
      Nat.toDigits_of_lt_base (by decide)]
    simp [List.replicate_succ', Nat.digitChar]
  · rw [Nat.toDigits_of_base_le (by decide) hge, List.length_append, List.length_singleton,
      Nat.add_sub_add_right, List.append_assoc]

theorem hexValue?_digitChar : ∀ n < 16, hexValue? n.digitChar = some n := by
  decide

/-- A unit that is escaped by its number. -/
theorem piece_unitEscape {n : Nat} (h : n < 0x10000) : Piece (Json.unitEscape n) [n] := by
  have hlast {m : Nat} (hm : m < 16) : hexChars 1 m = [m.digitChar] := by
    rw [hexChars, Nat.toDigits_of_lt_base hm]
    rfl
  have hchars : hexChars 4 n =
      [(n / 16 / 16 / 16).digitChar, (n / 16 / 16 % 16).digitChar, (n / 16 % 16).digitChar,
        (n % 16).digitChar] := by
    rw [hexChars_succ (by decide), hexChars_succ (by decide), hexChars_succ (by decide),
      hlast (by omega)]
    rfl
  have hvalue :
      n = ((n / 16 / 16 / 16 * 16 + n / 16 / 16 % 16) * 16 + n / 16 % 16) * 16 + n % 16 := by
    omega
  have hpiece := Piece.unit (hexValue?_digitChar (n / 16 / 16 / 16) (by omega))
    (hexValue?_digitChar (n / 16 / 16 % 16) (by omega))
    (hexValue?_digitChar (n / 16 % 16) (by omega)) (hexValue?_digitChar (n % 16) (by omega))
  rw [← hvalue, ← hchars] at hpiece
  exact hpiece

/-! ## Strings -/

namespace Json

theorem characters_stringChar (c : Char) : Characters (stringChar c) (charUnits c) := by
  rw [stringChar]
  split_ifs with hquote hn hr ht hf hb hplain hunit
  · obtain rfl | rfl := hquote <;> exact (Piece.short (by decide)).characters
  · exact hn ▸ (Piece.short (by decide)).characters
  · exact hr ▸ (Piece.short (by decide)).characters
  · exact ht ▸ (Piece.short (by decide)).characters
  · exact hf ▸ (Piece.short (by decide)).characters
  · exact hb ▸ (Piece.short (by decide)).characters
  · rw [not_or] at hquote
    exact (Piece.plain hplain.1 hquote.1 hquote.2).characters
  · rw [charUnits, if_pos hunit]
    exact (piece_unitEscape hunit).characters
  · have hbound := toNat_cases c
    rw [charUnits, if_neg hunit]
    exact (piece_unitEscape (by omega)).characters.append (piece_unitEscape (by omega)).characters

theorem stringText_stringChars (s : String) : StringText (stringChars s) (units s) := by
  have hcharacters (cs : List Char) :
      Characters (cs.flatMap stringChar) (cs.flatMap charUnits) := by
    induction cs with
    | nil => exact .nil
    | cons c cs ih =>
      rw [List.flatMap_cons, List.flatMap_cons]
      exact (characters_stringChar c).append ih
  exact .quoted (hcharacters s.toList)

end Json

/-! ## Numbers -/

theorem digits_decimalChars (n : Nat) : Digits (decimalChars n) :=
  ⟨DecimalDigits.decimalChars_ne_nil n, isDigit_of_mem_decimalChars⟩

theorem number_toString (i : Int) : Number (toString i).toList := by
  have hwhole : Whole (decimalChars i.natAbs) := by
    rcases Nat.eq_zero_or_pos i.natAbs with hzero | hpos
    · rw [hzero]
      exact .zero
    · obtain ⟨first, more, hchars, hfirst⟩ := exists_decimalChars hpos
      exact hchars ▸ .digits hfirst (hchars ▸ digits_decimalChars _)
  have hnumber := Number.parts (i < 0) hwhole .none .none
  simp only [List.append_nil, decide_eq_true_eq] at hnumber
  rw [toList_toString_int]
  exact hnumber

namespace DecimalDigits

variable {d : DecimalDigits} (hd : 0 < d.digits)

include hd

theorem exists_parts_positional : ∃ whole fraction, Whole whole ∧ Fraction fraction ∧
    d.positional true = whole ++ fraction := by
  obtain ⟨digits, exponent⟩ := d
  obtain ⟨first, more, hchars, hfirst⟩ := exists_decimalChars hd
  have hdigits : ∀ c ∈ first :: more, c.isDigit = true := hchars ▸ isDigit_of_mem_decimalChars
  cases exponent with
  | ofNat k =>
    refine ⟨first :: (more ++ List.replicate k '0'), ['.', '0'],
      .digits hfirst ⟨List.cons_ne_nil _ _, ?_⟩, .point ⟨List.cons_ne_nil _ _, by simp⟩, ?_⟩
    · show ∀ c ∈ (first :: more) ++ List.replicate k '0', c.isDigit = true
      exact isDigit_of_mem_append hdigits isDigit_of_mem_zeros
    · simp [positional, hchars]
  | negSucc k =>
    -- the point stands among the digits, or a zero before it and more behind it fill up to them
    rcases Nat.lt_or_ge (k + 1) (first :: more).length with hinside | hbefore
    · have hpadding : k + 1 + 1 - (first :: more).length = 0 := by omega
      obtain ⟨n, hn⟩ : ∃ n, (first :: more).length - (k + 1) = n + 1 :=
        ⟨(first :: more).length - (k + 1) - 1, by omega⟩
      refine ⟨first :: more.take n, '.' :: more.drop n, .digits hfirst ⟨List.cons_ne_nil _ _, ?_⟩,
        .point ⟨?_, ?_⟩, ?_⟩
      · exact fun c hc => hdigits c (List.mem_of_mem_take (i := n + 1) hc)
      · rw [ne_eq, List.drop_eq_nil_iff]
        simp only [List.length_cons] at hn
        omega
      · exact fun c hc => hdigits c (List.mem_of_mem_drop (i := n + 1) hc)
      · simp only [positional, hchars, hpadding, List.replicate_zero, List.nil_append, hn,
          List.take_succ_cons, List.drop_succ_cons, List.cons_append]
    · obtain ⟨m, hm⟩ : ∃ m, k + 1 + 1 - (first :: more).length = m + 1 :=
        ⟨k + 1 - (first :: more).length, by omega⟩
      have hpoint : ('0' :: (List.replicate m '0' ++ first :: more)).length - (k + 1) = 0 + 1 := by
        simp only [List.length_cons, List.length_append, List.length_replicate] at hm ⊢
        omega
      refine ⟨['0'], '.' :: (List.replicate m '0' ++ first :: more), .zero,
        .point ⟨List.append_ne_nil_of_right_ne_nil _ (List.cons_ne_nil _ _),
          isDigit_of_mem_append isDigit_of_mem_zeros hdigits⟩, ?_⟩
      simp only [positional, hchars, hm, List.replicate_succ, List.cons_append, hpoint,
        List.take_succ_cons, List.drop_succ_cons, List.take_zero, List.drop_zero, List.nil_append]

theorem exists_parts_scientific : ∃ whole fraction exponent, Whole whole ∧ Fraction fraction ∧
    Exponent exponent ∧ d.scientific = whole ++ (fraction ++ exponent) := by
  obtain ⟨first, more, hchars, hfirst⟩ := exists_decimalChars hd
  have hdigits : ∀ c ∈ first :: more, c.isDigit = true := hchars ▸ isDigit_of_mem_decimalChars
  obtain ⟨hfirstDigit, hmore⟩ := List.forall_mem_cons.1 hdigits
  have hexponent (e : Int) : Exponent ('e' :: exponentChars e) := by
    refine @Exponent.power 'e' [if e < 0 then '-' else '+'] _ (.inl rfl) (.inr ?_)
      ⟨List.append_ne_nil_of_right_ne_nil _ (decimalChars_ne_nil e.natAbs),
        isDigit_of_mem_append isDigit_of_mem_zeros isDigit_of_mem_decimalChars⟩
    split <;> simp
  refine ⟨[first], if more.isEmpty then []
    else '.' :: more, _, .digits hfirst ⟨by simp, by simpa using hfirstDigit⟩, ?_,
    hexponent (d.exponent + more.length), ?_⟩
  · cases more with
    | nil => exact .none
    | cons second more => exact .point ⟨List.cons_ne_nil _ _, hmore⟩
  · rw [scientific, hchars]
    simp

theorem exists_parts_chars : ∃ whole fraction exponent, Whole whole ∧ Fraction fraction ∧
    Exponent exponent ∧ d.chars true = whole ++ (fraction ++ exponent) := by
  rcases d.chars_cases with hchars | hchars
  · obtain ⟨whole, fraction, hwhole, hfraction, h⟩ := exists_parts_positional hd
    exact ⟨whole, fraction, [], hwhole, hfraction, .none, by rw [hchars, h, List.append_nil]⟩
  · rw [hchars]
    exact exists_parts_scientific hd

end DecimalDigits

theorem Double.chars_json {x : Double} (h : x.isFinite = true) :
    x.chars .json = x.chars .plain := by
  obtain ⟨m, e, hview, -⟩ := exists_view h
  rw [chars, chars, hview]
  rfl

theorem Double.number_chars {x : Double} (h : x.isFinite = true) : Number (x.chars .json) := by
  obtain ⟨d, hchars, hpattern⟩ := exists_chars h
  rcases Nat.eq_zero_or_pos d.digits with hzero | hpos
  · -- a decimal of no digits may have any exponent, but only zeros are written with one
    have hx : x = ofPattern (2 ^ 63 ≤ x.bits.toNat) 0 := by
      rw [← DecimalDigits.pattern_of_digits_eq_zero hzero, hpattern]
      exact eq_ofPattern x
    have hparts (negative : Bool) : (ofPattern negative 0).chars .json =
        (if negative then ['-'] else []) ++ (['0'] ++ (['.', '0'] ++ [])) := by
      cases negative <;> decide +kernel
    rw [hx, hparts]
    exact .parts _ .zero (.point ⟨by simp, by simp⟩) .none
  · obtain ⟨whole, fraction, exponent, hwhole, hfraction, hexponent, hparts⟩ :=
      DecimalDigits.exists_parts_chars hpos
    rw [chars_json h, hchars, hparts]
    exact .parts _ hwhole hfraction hexponent

/-- A float that is not finite is written with a bare name. -/
theorem Double.refused_chars {x : Double} (h : x.isFinite = false) : Refused (x.chars .json) := by
  rw [isFinite] at h
  rw [chars]
  cases hview : x.view with
  | finite => simp [hview] at h
  | infinite negative => cases negative <;> rfl
  | nan => rfl

/-! ## Values -/

namespace Json

/-- A property of all values, if arrays and objects have it whose parts have it. -/
theorem induction {P : Json → Prop} (null : P .null) (bool : ∀ b, P (.bool b))
    (int : ∀ i, P (.int i)) (float : ∀ x, P (.float x)) (text : ∀ s, P (.text s))
    (array : ∀ items, (∀ j ∈ items, P j) → P (.array items))
    (object : ∀ members : List (String × Json), (∀ m ∈ members, P m.2) → P (.object members))
    (j : Json) : P j :=
  @Json.rec P (fun items => ∀ j ∈ items, P j) (fun members => ∀ m ∈ members, P m.2) (fun m => P m.2)
    null bool int float text array object (by simp)
      (fun _ _ h hs => List.forall_mem_cons.2 ⟨h, hs⟩) (by simp)
    (fun _ _ h hs => List.forall_mem_cons.2 ⟨h, hs⟩) (fun _ _ h => h) j

/-- Whether no float in a value is an infinity or a NaN. -/
inductive Finite : Json → Prop where
  | null : Finite .null
  | bool (b : Bool) : Finite (.bool b)
  | int (i : Int) : Finite (.int i)
  | float {x : Double} (h : x.isFinite = true) : Finite (.float x)
  | text (s : String) : Finite (.text s)
  | array {items : List Json} (h : ∀ j ∈ items, Finite j) : Finite (.array items)
  | object {members : List (String × Json)} (h : ∀ m ∈ members, Finite m.2) :
    Finite (.object members)

/-- What the text of a value is read as. -/
def tree : Json → Tree
  | .null => .null
  | .bool b => .bool b
  | .int i => .number (toString i).toList
  | .float x => .number (x.chars .json)
  | .text s => .string (units s)
  | .array items => .array (items.map tree)
  | .object members => .object (members.map fun m => (units m.1, m.2.tree))
decreasing_by
  · decreasing_tactic
  · rename_i hm
    have hsize := List.sizeOf_lt_of_mem hm
    obtain ⟨name, j⟩ := m
    simp only [Prod.mk.sizeOf_spec, Json.object.sizeOf_spec] at hsize ⊢
    omega

/-! ### Layout -/

theorem Layout.blank_itemBreak (layout : Layout) (depth : Nat) :
    Blank (layout.itemBreak depth) := by
  cases layout with
  | inline => exact fun c hc => absurd hc List.not_mem_nil
  | lines =>
    intro c hc
    obtain rfl | hc := List.mem_cons.1 hc
    · rfl
    · rw [List.eq_of_mem_replicate hc]
      rfl

theorem Layout.blank_afterComma (layout : Layout) (depth : Nat) :
    Blank (layout.afterComma depth) := by
  cases layout with
  | inline => exact .cons rfl blank_nil
  | lines => exact blank_itemBreak .lines depth

/-- Parts of an array or an object with the blanks that each stands behind; those of the first
belong to the bracket. -/
def Layout.setOut {α : Type} (layout : Layout) (depth : Nat) : List α → List (List Char × α)
  | [] => []
  | a :: rest => ([], a) :: rest.map (layout.afterComma depth, ·)

namespace Layout

variable {α : Type} {layout : Layout} {depth : Nat}

theorem map_setOut {β : Type} (layout : Layout) (depth : Nat) (f : α → β) (parts : List α) :
    (layout.setOut depth parts).map (fun p => f p.2) = parts.map f := by
  cases parts with
  | nil => rfl
  | cons a rest => simp [setOut, Function.comp_def]

theorem mem_setOut {parts : List α} {a : α} :
    (∃ p ∈ layout.setOut depth parts, p.2 = a) ↔ a ∈ parts := by
  rw [← List.mem_map, map_setOut layout depth (fun a => a), List.map_id']

theorem blank_of_mem_setOut {parts : List α} {p : List Char × α}
    (hp : p ∈ layout.setOut depth parts) :
    Blank p.1 := by
  cases parts with
  | nil => exact absurd hp List.not_mem_nil
  | cons a rest =>
    obtain rfl | hp := List.mem_cons.1 hp
    · exact blank_nil
    · obtain ⟨a, -, rfl⟩ := List.mem_map.1 hp
      exact layout.blank_afterComma depth

theorem mem_of_mem_setOut {parts : List α} {p : List Char × α}
    (hp : p ∈ layout.setOut depth parts) :
    p.2 ∈ parts :=
  mem_setOut.1 ⟨p, hp, rfl⟩

end Layout

/-- An item behind blanks, as it is written. -/
def item (layout : Layout) (depth : Nat) (p : List Char × Json) : Item :=
  ⟨p.1, p.2.chars layout depth, [], p.2.tree⟩

/-- A member behind blanks, as it is written. -/
def entry (layout : Layout) (depth : Nat) (p : List Char × (String × Json)) : Entry :=
  ⟨p.1, stringChars p.2.1, [], units p.2.1, item layout depth ([' '], p.2.2)⟩

theorem moreItems_eq (layout : Layout) (depth : Nat) (items : List Json) :
    moreItems layout depth items =
      items.flatMap fun j => ',' :: (item layout depth (layout.afterComma depth, j)).chars := by
  induction items with
  | nil => rfl
  | cons j items ih =>
    rw [moreItems, ih, List.flatMap_cons]
    simp [item, Item.chars]

theorem moreMembers_eq (layout : Layout) (depth : Nat) (members : List (String × Json)) :
    moreMembers layout depth members =
      members.flatMap fun m => ',' :: (entry layout depth (layout.afterComma depth, m)).chars := by
  induction members with
  | nil => rfl
  | cons m members ih =>
    rw [moreMembers, ih, List.flatMap_cons]
    simp [entry, Entry.chars, item, Item.chars]

theorem chars_array (layout : Layout) (depth : Nat) (j : Json) (items : List Json) :
    (array (j :: items)).chars layout depth =
      '[' :: (layout.itemBreak (depth + 1) ++
        (List.intercalate [','] (((layout.setOut (depth + 1) (j :: items)).map
          (item layout (depth + 1))).map (·.chars)) ++ (layout.itemBreak depth ++ [']']))) := by
  rw [chars, moreItems_eq, Layout.setOut, List.map_cons, List.map_cons, List.map_map, List.map_map,
    intercalate_cons, List.flatMap_map]
  simp [item, Item.chars]

theorem chars_object (layout : Layout) (depth : Nat) (m : String × Json)
    (members : List (String × Json)) :
    (object (m :: members)).chars layout depth =
      '\x7b' :: (layout.itemBreak (depth + 1) ++
        (List.intercalate [','] (((layout.setOut (depth + 1) (m :: members)).map
          (entry layout (depth + 1))).map (·.chars)) ++ (layout.itemBreak depth ++ ['\x7d']))) := by
  rw [chars, moreMembers_eq, Layout.setOut, List.map_cons, List.map_cons,
    List.map_map, List.map_map, intercalate_cons, List.flatMap_map]
  simp [entry, Entry.chars, item, Item.chars]

theorem padded_item {layout : Layout} {depth : Nat} {p : List Char × Json} (hp : Blank p.1) :
    (item layout depth p).Padded :=
  ⟨hp, blank_nil⟩

theorem named_entry {layout : Layout} {depth : Nat} {p : List Char × (String × Json)}
    (hp : Blank p.1) :
    (entry layout depth p).Named :=
  ⟨hp, stringText_stringChars p.2.1, blank_nil, padded_item (.cons rfl blank_nil)⟩

theorem map_tree_items (layout : Layout) (depth : Nat) (items : List Json) :
    ((layout.setOut depth items).map (item layout depth)).map (·.tree) = items.map tree := by
  rw [List.map_map]
  exact layout.map_setOut depth tree items

theorem map_tree_entries (layout : Layout) (depth : Nat) (members : List (String × Json)) :
    ((layout.setOut depth members).map (entry layout depth)).map (·.tree) =
      members.map fun m => (units m.1, m.2.tree) := by
  rw [List.map_map]
  exact layout.map_setOut depth (fun m : String × Json => (units m.1, m.2.tree)) members

/-! ### Finite values -/

/-- The text of a finite value is the value. -/
theorem Finite.valueText_chars {j : Json} (h : j.Finite) (layout : Layout) (depth : Nat) :
    ValueText (j.chars layout depth) j.tree := by
  -- the depth only changes the blanks between parts, and these may be any
  induction h generalizing depth with
  | null =>
    rw [tree]
    exact .null
  | bool b =>
    rw [tree]
    cases b
    · exact .false
    · exact .true
  | int i =>
    rw [tree]
    exact .number (number_toString i)
  | float h =>
    rw [tree]
    exact .number (Double.number_chars h)
  | text s =>
    rw [tree]
    exact .string (stringText_stringChars s)
  | @array items _ ih =>
    rw [tree]
    cases items with
    | nil => exact .array [] blank_nil (by simp) (by simp) blank_nil
    | cons j items =>
      have hvalue :=
        ValueText.array ((layout.setOut (depth + 1) (j :: items)).map (item layout (depth + 1)))
          (layout.blank_itemBreak (depth + 1)) ?_ ?_ (layout.blank_itemBreak depth)
      · rw [chars_array, ← map_tree_items layout (depth + 1)]
        exact hvalue
      · intro e he
        obtain ⟨p, hp, rfl⟩ := List.mem_map.1 he
        exact padded_item (Layout.blank_of_mem_setOut hp)
      · intro e he
        obtain ⟨p, hp, rfl⟩ := List.mem_map.1 he
        exact ih p.2 (Layout.mem_of_mem_setOut hp) _
  | @object members _ ih =>
    rw [tree]
    cases members with
    | nil => exact .object [] blank_nil (by simp) (by simp) blank_nil
    | cons m members =>
      have hvalue :=
        ValueText.object ((layout.setOut (depth + 1) (m :: members)).map (entry layout (depth + 1)))
          (layout.blank_itemBreak (depth + 1)) ?_ ?_ (layout.blank_itemBreak depth)
      · rw [chars_object, ← map_tree_entries layout (depth + 1)]
        exact hvalue
      · intro n hn
        obtain ⟨p, hp, rfl⟩ := List.mem_map.1 hn
        exact named_entry (Layout.blank_of_mem_setOut hp)
      · intro n hn
        obtain ⟨p, hp, rfl⟩ := List.mem_map.1 hn
        exact ih p.2 (Layout.mem_of_mem_setOut hp) _

/-! ### Values that are not finite -/

/-- A text behind a mark and blanks, with anything behind it. -/
theorem refused_bracketed {mark : Char} (hmark : Safe mark) {left cs : List Char}
    (hleft : Blank left) (h : Refused cs) (rest : List Char) :
    Refused (mark :: (left ++ (cs ++ rest))) :=
  hmark.passes.append_refused (hleft.passes.append_refused (h.append rest))

/-- Parts of which each is finite or refused make up something finite or refused. -/
theorem finite_or_refused_parts {α β : Type} (finite : α → Prop) {layout : Layout} {depth : Nat}
    {parts : List α} {written : List Char × α → β} {text : β → List Char}
    (h : ∀ p ∈ layout.setOut depth parts, finite p.2 ∧ Passes (text (written p)) ∨
      Refused (text (written p))) :
    (∀ a ∈ parts, finite a) ∨
      Refused (List.intercalate [','] (((layout.setOut depth parts).map written).map text)) := by
  by_cases hall : ∀ a ∈ parts, finite a
  · exact .inl hall
  · right
    push Not at hall
    obtain ⟨a, ha, hnot⟩ := hall
    obtain ⟨p, hp, rfl⟩ := Layout.mem_setOut.2 ha
    have hrefused : Refused (text (written p)) := (h p hp).resolve_left fun hpair => hnot hpair.1
    refine refused_intercalate ?_ ⟨_, List.mem_map_of_mem (List.mem_map_of_mem hp), hrefused⟩
    rw [List.forall_mem_map, List.forall_mem_map]
    exact fun q hq => (h q hq).imp_left And.right

/-- An item is passed or refused as its value is. -/
theorem finite_or_refused_item {layout : Layout} {depth : Nat} {p : List Char × Json}
    (hp : Blank p.1) (h : p.2.Finite ∨ Refused (p.2.chars layout depth)) :
    p.2.Finite ∧ Passes (item layout depth p).chars ∨ Refused (item layout depth p).chars :=
  h.imp (fun hfinite =>
    ⟨hfinite, Item.passes (padded_item hp) (hfinite.valueText_chars layout depth).passes⟩)
    fun hrefused => hp.passes.append_refused (hrefused.append [])

theorem finite_or_refused_entry {layout : Layout} {depth : Nat} {p : List Char × (String × Json)}
    (hp : Blank p.1) (h : p.2.2.Finite ∨ Refused (p.2.2.chars layout depth)) :
    p.2.2.Finite ∧ Passes (entry layout depth p).chars ∨ Refused (entry layout depth p).chars := by
  have hname := Entry.passes_name (@named_entry layout depth p hp)
  rw [Entry.chars_eq]
  exact (@finite_or_refused_item layout depth ([' '], p.2.2) (.cons rfl blank_nil) h).imp
    (fun hvalue => ⟨hvalue.1, hname.append hvalue.2⟩) hname.append_refused

/-- The text of a value that is not finite meets a letter of a name that is no JSON. -/
theorem finite_or_refused (j : Json) (layout : Layout) (depth : Nat) :
    j.Finite ∨ Refused (j.chars layout depth) := by
  -- a float that is not finite spoils all that is around it, from the inside out
  induction j using induction generalizing depth with
  | null => exact .inl .null
  | bool b => exact .inl (.bool b)
  | int i => exact .inl (.int i)
  | float x =>
    cases hx : x.isFinite with
    | true => exact .inl (.float hx)
    | false => exact .inr (Double.refused_chars hx)
  | text s => exact .inl (.text s)
  | array items ih =>
    cases items with
    | nil => exact .inl (.array (by simp))
    | cons j items =>
      have hparts :=
        finite_or_refused_parts Finite fun p (hp : p ∈ layout.setOut (depth + 1) (j :: items)) =>
        finite_or_refused_item (Layout.blank_of_mem_setOut hp)
          (ih p.2 (Layout.mem_of_mem_setOut hp) (depth + 1))
      rw [chars_array]
      exact hparts.imp .array fun h =>
        refused_bracketed (by simp [Safe]) (layout.blank_itemBreak _) h _
  | object members ih =>
    cases members with
    | nil => exact .inl (.object (by simp))
    | cons m members =>
      have hparts := finite_or_refused_parts (fun m : String × Json => m.2.Finite)
        fun p (hp : p ∈ layout.setOut (depth + 1) (m :: members)) =>
          finite_or_refused_entry (Layout.blank_of_mem_setOut hp)
            (ih p.2 (Layout.mem_of_mem_setOut hp) (depth + 1))
      rw [chars_object]
      exact hparts.imp .object fun h =>
        refused_bracketed (by simp [Safe]) (layout.blank_itemBreak _) h _

/-- The text of a value, with blanks behind it, denotes the value if it is finite, and else
nothing. -/
theorem denotes_iff (j : Json) (layout : Layout) (depth : Nat) {right : List Char}
    (hright : Blank right) (t : Tree) :
    Denotes (j.chars layout depth ++ right) t ↔ j.Finite ∧ t = j.tree := by
  have hdenotes (h : j.Finite) : Denotes (j.chars layout depth ++ right) j.tree :=
    .item ⟨[], j.chars layout depth, right, j.tree⟩ ⟨blank_nil, hright⟩
      (h.valueText_chars layout depth)
  constructor
  · intro ht
    have hfinite : j.Finite :=
      (j.finite_or_refused layout depth).resolve_right fun hrefused =>
        (hrefused.append right).not_denotes t ht
    exact ⟨hfinite, ht.unique (hdenotes hfinite)⟩
  · rintro ⟨hfinite, rfl⟩
    exact hdenotes hfinite

end Json

end OnlineFeatures
