import OnlineFeatures.Conversion.Explicit
import OnlineFeatures.Conversion.Unwrapped
import OnlineFeatures.Schema
import OnlineFeatures.Proofs.Message.Value

/-!
# The members of the union

The union of a value has a scalar and a list of each scalar type, and the explicit null. What is
said of one type is said of all: `ScalarType.Carrier` has the values of a type, `content` and
`listContent` the members that hold them, `native` their native values. A record belongs to the
member of its number if its payload is delimited as the member's is (`Converter.Owns`), and all
other records are foreign to a value (`Content.absorb_eq_foreign_iff`).
-/

namespace OnlineFeatures

namespace ScalarType

/-- The values of a scalar type. -/
def Carrier : ScalarType → Type
  | bytes => Bytes
  | text => String
  | int32 => Int32
  | int64 => Int64
  | double => Double
  | float => Single
  | bool => Bool

instance instElement : (t : ScalarType) → Element t.Carrier
  | bytes => show Element Bytes from inferInstance
  | text => show Element String from inferInstance
  | int32 => show Element Int32 from inferInstance
  | int64 => show Element Int64 from inferInstance
  | double => show Element Double from inferInstance
  | float => show Element Single from inferInstance
  | bool => show Element Bool from inferInstance

/-- The number of the member that holds a single scalar. -/
def number : ScalarType → Nat
  | bytes => 1
  | text => 2
  | int32 => 3
  | int64 => 4
  | double => 5
  | float => 6
  | bool => 7

/-- How a single scalar is delimited. -/
def kind : ScalarType → WireKind
  | bytes | text => .bytes
  | int32 | int64 | bool => .varint
  | double => .fixed64
  | float => .fixed32

/-- The member that holds a single scalar. -/
def content : (t : ScalarType) → t.Carrier → Content
  | bytes => .bytes
  | text => .text
  | int32 => .int32
  | int64 => .int64
  | double => .double
  | float => .float
  | bool => .bool

/-- The member that holds a list. -/
def listContent : (t : ScalarType) → ListMessage t.Carrier → Content
  | bytes => .bytesList
  | text => .textList
  | int32 => .int32List
  | int64 => .int64List
  | double => .doubleList
  | float => .floatList
  | bool => .boolList

/-- Whether a record of a number spells a scalar. -/
def Spells : (t : ScalarType) → Nat → Field → t.Carrier → Prop
  | bytes, n, f, b => f = .bytes n b
  | text, n, f, s => f = .bytes n (Utf8.encode s)
  | int32, n, f, i => ∃ v, f = .varint n v ∧ (VarintCoded.ofVarint v : Int32) = i
  | int64, n, f, i => ∃ v, f = .varint n v ∧ (VarintCoded.ofVarint v : Int64) = i
  | double, n, f, x => ∃ v, f = .fixed64 n v ∧ Double.mk v = x
  | float, n, f, x => ∃ v, f = .fixed32 n v ∧ Single.mk v = x
  | bool, n, f, b => ∃ v, f = .varint n v ∧ (VarintCoded.ofVarint v : Bool) = b

/-- The native value of a scalar. -/
def native : (t : ScalarType) → t.Carrier → Native
  | bytes => .bytes
  | text => .text
  | int32 => fun i => .int i.toInt
  | int64 => fun i => .int i.toInt
  | double => .float
  | float => fun x => .float x.toDouble
  | bool => .bool

/-- The list that a member holds, if it is the list of a type. -/
def list? : (t : ScalarType) → Content → Option (ListMessage t.Carrier)
  | bytes, .bytesList l => some l
  | text, .textList l => some l
  | int32, .int32List l => some l
  | int64, .int64List l => some l
  | double, .doubleList l => some l
  | float, .floatList l => some l
  | bool, .boolList l => some l
  | _, _ => none

theorem unwrap_content (t : ScalarType) (x : t.Carrier) : (t.content x).unwrap = t.native x := by
  cases t <;> rfl

theorem unwrap_listContent (t : ScalarType) (l : ListMessage t.Carrier) :
    (t.listContent l).unwrap = .list (l.items.map t.native) := by
  cases t <;> rfl

theorem content_injective (t : ScalarType) : Function.Injective t.content := by
  intro x y h
  cases t <;> cases h <;> rfl

theorem list?_content (t u : ScalarType) (x : u.Carrier) : t.list? (u.content x) = none := by
  cases t <;> cases u <;> rfl

theorem list?_null (t : ScalarType) (n : Int32) : t.list? (.null n) = none := by
  cases t <;> rfl

theorem list?_listContent (t : ScalarType) (l : ListMessage t.Carrier) :
    t.list? (t.listContent l) = some l := by
  cases t <;> rfl

theorem listContent_injective (t : ScalarType) : Function.Injective t.listContent := fun l l' h =>
  Option.some.inj ((t.list?_listContent l).symm.trans (h ▸ t.list?_listContent l'))

theorem list?_listContent_of_ne {t u : ScalarType} (h : t ≠ u) (l : ListMessage u.Carrier) :
    t.list? (u.listContent l) = none := by
  cases t <;> cases u <;> first | exact absurd rfl h | rfl

theorem number_pos (t : ScalarType) : 0 < t.number := by cases t <;> decide

theorem number_lt (t : ScalarType) : t.number < 8 := by cases t <;> decide

theorem number_injective : Function.Injective number := by
  intro t u h
  cases t <;> cases u <;> first | rfl | cases h

end ScalarType

/-! ## Members -/

namespace Converter

/-- The number of the member that a converter fills. -/
def number : Converter → Nat
  | scalar t => t.number
  | list t => 10 + t.number
  | null => 19

/-- How that member is delimited. -/
def kind : Converter → WireKind
  | scalar t => t.kind
  | list _ => .bytes
  | null => .varint

/-- Whether a record is one of the member's: it has its number and is delimited as the member is. -/
def Owns (m : Converter) (f : Field) : Prop := f.number = m.number ∧ f.kind = m.kind

instance (m : Converter) (f : Field) : Decidable (m.Owns f) := inferInstanceAs (Decidable (_ ∧ _))

theorem number_injective : Function.Injective number := by
  rintro (t | t | -) (u | u | -) h <;> simp only [number] at h
  case scalar.scalar => rw [ScalarType.number_injective h]
  case list.list => rw [ScalarType.number_injective (Nat.add_left_cancel h)]
  case null.null => rfl
  all_goals
    try have := t.number_lt
    try have := u.number_lt
    try have := t.number_pos
    try have := u.number_pos
    omega

theorem Owns.eq {m m' : Converter} {f : Field} (h : m.Owns f) (h' : m'.Owns f) : m = m' :=
  number_injective (h.1.symm.trans h'.1)

/-- The members, in the order of their numbers. -/
def members : List Converter :=
  let types := [ScalarType.bytes, .text, .int32, .int64, .double, .float, .bool]
  types.map .scalar ++ types.map .list ++ [null]

theorem mem_members (m : Converter) : m ∈ members := by
  rcases m with t | t | - <;> (try cases t) <;> decide

end Converter

namespace Converter

/-- The name by which a member is described. -/
def name? (m : Converter) : Option String :=
  ((Schema.message? "Value").bind fun d => d.fields.find? (·.number = m.number)).map (·.name)

theorem name?_scalar (t : ScalarType) (x : t.Carrier) :
    (scalar t).name? = some (t.content x).member := by
  cases t <;> rfl

theorem name?_list (t : ScalarType) (l : ListMessage t.Carrier) :
    (list t).name? = some (t.listContent l).member := by
  cases t <;> rfl

end Converter

namespace Field

/-- The member that a record belongs to, if any. -/
def member? (f : Field) : Option Converter := Converter.members.find? (·.Owns f)

theorem member?_eq_some_iff {f : Field} {m : Converter} : f.member? = some m ↔ m.Owns f := by
  constructor
  · intro h
    simpa using List.find?_some h
  · intro h
    cases hfind : f.member? with
    | some m' =>
      have howns : m'.Owns f := by simpa using List.find?_some hfind
      rw [howns.eq h]
    | none =>
      have := List.find?_eq_none.1 hfind m m.mem_members
      simp [h] at this

theorem member?_eq_none_iff {f : Field} : f.member? = none ↔ ∀ m : Converter, ¬ m.Owns f := by
  simp only [Option.eq_none_iff_forall_ne_some, ne_eq, member?_eq_some_iff]

end Field

/-! ## Taking up a record of a member -/

theorem Utf8.decode?_eq_some_iff {bs : Bytes} {s : String} :
    Utf8.decode? bs = some s ↔ bs = Utf8.encode s :=
  ⟨Utf8.eq_encode_of_decode?, fun h => h ▸ Utf8.decode?_encode s⟩

namespace Content

/-- A scalar that is read takes the place of what a value held. -/
theorem absorb_scalar {t : ScalarType} {f : Field} (h : (Converter.scalar t).Owns f)
    (held : Option Content) {c : Content} :
    absorb held f = .taken c ↔ ∃ x, t.Spells t.number f x ∧ t.content x = c := by
  obtain ⟨hnumber, hkind⟩ := h
  cases t <;> cases f <;> cases hkind <;> obtain rfl := hnumber
  case bytes.bytes b =>
    refine ⟨fun h => ⟨b, rfl, Reading.taken.inj h⟩, ?_⟩
    rintro ⟨x, hx, rfl⟩
    rw [(Field.bytes.inj hx).2]
    rfl
  case text.bytes b =>
    refine ofOption_eq_taken.trans (Option.map_eq_some_iff.trans (exists_congr fun s => ?_))
    exact and_congr_left' (Utf8.decode?_eq_some_iff.trans
      ⟨fun h => congrArg (Field.bytes 2) h, fun h => (Field.bytes.inj h).2⟩)
  all_goals
    rename_i v
    refine ⟨fun h => ⟨_, ⟨v, rfl, rfl⟩, Reading.taken.inj h⟩, ?_⟩
    rintro ⟨_, ⟨w, hw, rfl⟩, rfl⟩
    cases hw
    rfl

/-- A list is read on top of the list of its type that a value held. -/
theorem absorb_list {t : ScalarType} {f : Field} (h : (Converter.list t).Owns f)
    (held : Option Content) :
    ∃ content, f = .bytes (10 + t.number) content ∧
      absorb held f =
        absorb.ofOption ((listFrom (held.bind t.list?) content).map t.listContent) := by
  obtain ⟨hnumber, hkind⟩ := h
  cases f <;> cases hkind
  obtain rfl := hnumber
  refine ⟨_, rfl, ?_⟩
  cases t <;> (simp only [absorb]; rcases held with - | (_ | _) <;> rfl)

/-- The explicit null takes the place of what a value held. -/
theorem absorb_null {f : Field} (h : Converter.null.Owns f) (held : Option Content) :
    ∃ v, f = .varint 19 v ∧ absorb held f = .taken (.null (VarintCoded.ofVarint v)) := by
  obtain ⟨hnumber, hkind⟩ := h
  cases f <;> cases hkind
  obtain rfl := hnumber
  exact ⟨_, rfl, rfl⟩

/-- A record that belongs to no member is foreign to a value, whatever the value holds, and no other
is. -/
theorem absorb_eq_foreign_iff {held : Option Content} {f : Field} :
    absorb held f = .foreign ↔ f.member? = none := by
  constructor
  · intro h
    refine Field.member?_eq_none_iff.2 fun m hm => ?_
    rcases m with t | t | -
    · obtain ⟨hnumber, hkind⟩ := hm
      cases t <;> cases f <;> cases hkind <;> obtain rfl := hnumber
      all_goals first
        | exact ofOption_ne_foreign _ h
        | cases h
    · obtain ⟨content, -, habsorb⟩ := absorb_list hm held
      exact ofOption_ne_foreign _ (habsorb ▸ h)
    · obtain ⟨v, -, habsorb⟩ := absorb_null hm held
      cases habsorb.symm.trans h
  · intro h
    unfold absorb
    split
    case h_16 => rfl
    all_goals cases h

end Content

end OnlineFeatures
