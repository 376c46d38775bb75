import OnlineFeatures.Text.Json
import OnlineFeatures.Proofs.Number.FloatText

/-!
# The grammar of JSON

RFC 8259 as a relation between texts and what they denote (`JsonGrammar.Denotes`). It covers the
whole grammar, not only what is ever written here: blanks, every form of numbers, all escapes, and
units of half a character. Numbers stand in the tree as they are written, strings as their UTF-16
units, which differ for different texts (`JsonGrammar.units_injective`).
-/

namespace OnlineFeatures

namespace JsonGrammar

open Numeral (IsPart)

/-- What a text denotes. -/
inductive Tree where
  | null
  | bool (b : Bool)
  | number (cs : List Char)
  | string (units : List Nat)
  | array (items : List Tree)
  | object (members : List (List Nat × Tree))

def isSpace (c : Char) : Bool := c = ' ' || c = '\t' || c = '\n' || c = '\r'

/-- Blanks, as they may stand around every value and every mark. -/
def Blank (cs : List Char) : Prop := ∀ c ∈ cs, isSpace c = true

theorem blank_nil : Blank [] := fun _ hc => absurd hc List.not_mem_nil

theorem Blank.cons {c : Char} {cs : List Char} (hc : isSpace c = true) (hcs : Blank cs) :
    Blank (c :: cs) :=
  List.forall_mem_cons.2 ⟨hc, hcs⟩

/-! ## Numbers -/

def Digits (cs : List Char) : Prop := cs ≠ [] ∧ ∀ c ∈ cs, c.isDigit = true

/-- The part before the point: zero alone, or digits that do not begin with zero. -/
inductive Whole : List Char → Prop where
  | zero : Whole ['0']
  | digits {first : Char} {more : List Char} (hfirst : first ≠ '0') (h : Digits (first :: more)) :
    Whole (first :: more)

inductive Fraction : List Char → Prop where
  | none : Fraction []
  | point {ds : List Char} (h : Digits ds) : Fraction ('.' :: ds)

inductive Exponent : List Char → Prop where
  | none : Exponent []
  | power {e : Char} {sign ds : List Char} (he : e = 'e' ∨ e = 'E')
    (hsign : sign = [] ∨ sign = ['-'] ∨ sign = ['+']) (h : Digits ds) : Exponent (e :: (sign ++ ds))

inductive Number : List Char → Prop where
  | parts (negative : Bool) {whole fraction exponent : List Char} (hwhole : Whole whole)
    (hfraction : Fraction fraction) (hexponent : Exponent exponent) :
    Number ((if negative then ['-'] else []) ++ (whole ++ (fraction ++ exponent)))

/-! ## Strings -/

/-- The UTF-16 units of a character. -/
def charUnits (c : Char) : List Nat :=
  if c.toNat < 0x10000 then [c.toNat]
  else [0xd800 + (c.toNat - 0x10000) / 0x400, 0xdc00 + (c.toNat - 0x10000) % 0x400]

/-- The UTF-16 units of a text. -/
def units (s : String) : List Nat := s.toList.flatMap charUnits

theorem charUnits_ne_nil (c : Char) : charUnits c ≠ [] := by
  rw [charUnits]
  split <;> simp

theorem toNat_cases (c : Char) : c.toNat < 0xd800 ∨ 0xdfff < c.toNat ∧ c.toNat < 0x110000 := by
  have hvalid := c.valid
  simp only [UInt32.isValidChar, Nat.isValidChar] at hvalid
  exact hvalid

/-- The units of a character tell where they end, since no character has the number of half a
pair. -/
theorem charUnits_append_inj {c d : Char} {ms ns : List Nat}
    (h : charUnits c ++ ms = charUnits d ++ ns) :
    c = d ∧ ms = ns := by
  have hc := toNat_cases c
  have hd := toNat_cases d
  simp only [charUnits] at h
  split_ifs at h <;> simp only [List.cons_append, List.nil_append, List.cons.injEq] at h
  · exact ⟨Char.toNat_inj.1 h.1, h.2⟩
  · omega
  · omega
  · exact ⟨Char.toNat_inj.1 (by omega), h.2.2⟩

theorem units_injective : Function.Injective units := by
  have hchars (cs ds : List Char) (h : cs.flatMap charUnits = ds.flatMap charUnits) : cs = ds := by
    induction cs generalizing ds with
    | nil =>
      cases ds with
      | nil => rfl
      | cons d ds => exact absurd h.symm (List.append_ne_nil_of_left_ne_nil (charUnits_ne_nil d) _)
    | cons c cs ih =>
      cases ds with
      | nil => exact absurd h (List.append_ne_nil_of_left_ne_nil (charUnits_ne_nil c) _)
      | cons d ds =>
        obtain ⟨rfl, hrest⟩ := charUnits_append_inj h
        rw [ih ds hrest]
  exact fun s t h => String.toList_inj.1 (hchars _ _ h)

/-- The number that a hexadecimal digit stands for. -/
def hexValue? (c : Char) : Option Nat :=
  if '0' ≤ c ∧ c ≤ '9' then some (c.toNat - '0'.toNat)
  else if 'a' ≤ c ∧ c ≤ 'f' then some (10 + (c.toNat - 'a'.toNat))
  else if 'A' ≤ c ∧ c ≤ 'F' then some (10 + (c.toNat - 'A'.toNat))
  else none

/-- The characters that may follow a backslash, with the units that they stand for. -/
def shortEscapes : List (Char × Nat) :=
  [('"', 0x22), ('\\', 0x5c), ('/', 0x2f), ('b', 0x08), ('f', 0x0c), ('n', 0x0a),
    ('r', 0x0d), ('t', 0x09)]

/-- What stands for one character, or for half of one, in a string. -/
inductive Piece : List Char → List Nat → Prop where
  | plain {c : Char} (hcontrol : 0x20 ≤ c.toNat) (hquote : c ≠ '"') (hbackslash : c ≠ '\\') :
    Piece [c] (charUnits c)
  | short {c : Char} {n : Nat} (h : (c, n) ∈ shortEscapes) : Piece ['\\', c] [n]
  | unit {c₁ c₂ c₃ c₄ : Char} {n₁ n₂ n₃ n₄ : Nat} (h₁ : hexValue? c₁ = some n₁)
    (h₂ : hexValue? c₂ = some n₂) (h₃ : hexValue? c₃ = some n₃) (h₄ : hexValue? c₄ = some n₄) :
    Piece ['\\', 'u', c₁, c₂, c₃, c₄] [((n₁ * 16 + n₂) * 16 + n₃) * 16 + n₄]

inductive Characters : List Char → List Nat → Prop where
  | nil : Characters [] []
  | cons {cs ds : List Char} {ms ns : List Nat} (h : Piece cs ms) (hs : Characters ds ns) :
    Characters (cs ++ ds) (ms ++ ns)

inductive StringText : List Char → List Nat → Prop where
  | quoted {cs : List Char} {ns : List Nat} (h : Characters cs ns) :
    StringText ('"' :: (cs ++ ['"'])) ns

theorem Characters.append {cs ds : List Char} {ms ns : List Nat} (hcs : Characters cs ms)
    (hds : Characters ds ns) : Characters (cs ++ ds) (ms ++ ns) := by
  induction hcs with
  | nil => exact hds
  | cons h _ ih =>
    rw [List.append_assoc, List.append_assoc]
    exact .cons h ih

theorem Piece.characters {cs : List Char} {ns : List Nat} (h : Piece cs ns) : Characters cs ns := by
  have hsingle := Characters.cons h .nil
  rwa [List.append_nil, List.append_nil] at hsingle

/-! ## Values -/

/-- A value as it is written, with the blanks around it. -/
structure Item where
  left : List Char
  text : List Char
  right : List Char
  tree : Tree

namespace Item

def chars (e : Item) : List Char := e.left ++ (e.text ++ e.right)

def Padded (e : Item) : Prop := Blank e.left ∧ Blank e.right

end Item

/-- A member of an object as it is written, with the blanks around its name and its value. -/
structure Entry where
  left : List Char
  name : List Char
  right : List Char
  units : List Nat
  value : Item

namespace Entry

def chars (m : Entry) : List Char := m.left ++ (m.name ++ (m.right ++ ':' :: m.value.chars))

def tree (m : Entry) : List Nat × Tree := (m.units, m.value.tree)

def Named (m : Entry) : Prop :=
  Blank m.left ∧ StringText m.name m.units ∧ Blank m.right ∧ m.value.Padded

end Entry

/-- Whether a text without blanks around it is a value, and which one. -/
inductive ValueText : List Char → Tree → Prop where
  | null : ValueText "null".toList .null
  | true : ValueText "true".toList (.bool Bool.true)
  | false : ValueText "false".toList (.bool Bool.false)
  | number {cs : List Char} (h : Number cs) : ValueText cs (.number cs)
  | string {cs : List Char} {units : List Nat} (h : StringText cs units) :
    ValueText cs (.string units)
  | array {left right : List Char} (items : List Item) (hleft : Blank left)
    (hpadded : ∀ e ∈ items, e.Padded) (h : ∀ e ∈ items, ValueText e.text e.tree)
    (hright : Blank right) :
    ValueText ('[' :: (left ++ (List.intercalate [','] (items.map (·.chars)) ++ (right ++ [']']))))
      (.array (items.map (·.tree)))
  | object {left right : List Char} (members : List Entry) (hleft : Blank left)
    (hnamed : ∀ m ∈ members, m.Named) (h : ∀ m ∈ members, ValueText m.value.text m.value.tree)
    (hright : Blank right) :
    ValueText
      ('\x7b' :: (left ++ (List.intercalate [','] (members.map (·.chars)) ++ (right ++ ['\x7d']))))
      (.object (members.map (·.tree)))

/-- Whether a text is JSON, and what it denotes. -/
inductive Denotes : List Char → Tree → Prop where
  | item (e : Item) (hpadded : e.Padded) (h : ValueText e.text e.tree) : Denotes e.chars e.tree

theorem intercalate_cons (mark : Char) (cs : List Char) (rest : List (List Char)) :
    List.intercalate [mark] (cs :: rest) = cs ++ rest.flatMap (mark :: ·) := by
  induction rest generalizing cs with
  | nil => simp [List.intercalate]
  | cons ds rest ih =>
    have hstep : List.intercalate [mark] (cs :: ds :: rest) =
        cs ++ mark :: List.intercalate [mark] (ds :: rest) := by
      simp [List.intercalate, List.intersperse]
    rw [hstep, ih, List.flatMap_cons, List.cons_append]

/-! ## The characters of numbers -/

theorem Digits.isPart {cs : List Char} (h : Digits cs) : ∀ c ∈ cs, IsPart c :=
  fun c hc => .inl (h.2 c hc)

theorem Number.isPart {cs : List Char} (h : Number cs) : ∀ c ∈ cs, IsPart c := by
  obtain ⟨negative, hwhole, hfraction, hexponent⟩ := h
  refine List.forall_mem_append.2
    ⟨?_, List.forall_mem_append.2 ⟨?_, List.forall_mem_append.2 ⟨?_, ?_⟩⟩⟩
  · cases negative <;> simp [IsPart]
  · cases hwhole with
    | zero => simp [IsPart]
    | digits _ h => exact h.isPart
  · cases hfraction with
    | none => simp
    | point h => exact List.forall_mem_cons.2 ⟨.inr (by simp), h.isPart⟩
  · cases hexponent with
    | none => simp
    | power he hsign h =>
      refine List.forall_mem_cons.2 ⟨.inr ?_, List.forall_mem_append.2 ⟨?_, h.isPart⟩⟩
      · obtain rfl | rfl := he <;> simp
      · obtain rfl | rfl | rfl := hsign <;> simp [IsPart]

end JsonGrammar

end OnlineFeatures
