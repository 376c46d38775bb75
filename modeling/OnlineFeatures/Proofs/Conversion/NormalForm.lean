import OnlineFeatures.Conversion.Unwrapped
import OnlineFeatures.Proofs.Conversion.Supported

/-!
# Normal forms

What comes back when a native value is converted and unwrapped again is its normal form: a plain
integer for a field status, the nearest float for a quotient, plain bytes for a byte array and a
list for a tuple, and everything else as it was. `Native.infer_normal` says so for every value that
is converted, and that the member it is held in is the one of its kind (`Native.Member`), whatever
the order of a list.
-/

namespace OnlineFeatures

namespace Native

/-! ## Normal forms -/

/-- The normal form of a scalar. -/
inductive NormalScalar : Native → Native → Prop
  | bool (b : Bool) : NormalScalar (.bool b) (.bool b)
  | integer {v : Native} {i : Int} : v.integer? = some i → NormalScalar v (.int i)
  | float (x : Double) : NormalScalar (.float x) (.float x)
  | fraction {num : Int} {den : Nat} {x : Double} :
      x.IsNearest (num / den) → NormalScalar (.fraction num den) (.float x)
  | text (s : String) : NormalScalar (.text s) (.text s)
  | bytes (content : Bytes) : NormalScalar (.octets .bytes content) (.bytes content)
  | byteArray (content : Bytes) : NormalScalar (.octets .byteArray content) (.bytes content)

/-- The normal form of a value. -/
inductive NormalForm : Native → Native → Prop
  | none : NormalForm .none .none
  | scalar {v n : Native} : NormalScalar v n → NormalForm v n
  | sequence {type : CollectionType} {items ns : List Native} :
      type.IsSequence → List.Forall₂ NormalScalar items ns →
        NormalForm (.collection type items) (.list ns)

theorem NormalScalar.unique {v n n' : Native} (h : v.NormalScalar n) (h' : v.NormalScalar n') :
    n = n' := by
  cases h with
  | integer hi =>
    cases h' with
    | integer hi' => rw [Option.some.inj (hi.symm.trans hi')]
    | _ => cases hi
  | fraction hx =>
    cases h' with
    | integer hi => cases hi
    | fraction hx' => rw [hx.unique hx']
  | _ =>
    cases h' with
    | integer hi => cases hi
    | _ => rfl

theorem NormalScalar.isSome_kind? {v n : Native} (h : v.NormalScalar n) :
    v.kind?.isSome = true := by
  cases h with
  | integer hi =>
    rw [kind?_of_integer? hi]
    rfl
  | _ => rfl

/-- No value has two normal forms. -/
theorem NormalForm.unique {v n n' : Native} (h : v.NormalForm n) (h' : v.NormalForm n') :
    n = n' := by
  cases h with
  | none =>
    cases h' with
    | none => rfl
    | scalar hn => exact absurd hn.isSome_kind? Bool.false_ne_true
  | scalar hn =>
    cases h' with
    | none => exact absurd hn.isSome_kind? Bool.false_ne_true
    | scalar hn' => exact hn.unique hn'
    | sequence => exact absurd hn.isSome_kind? Bool.false_ne_true
  | sequence _ hns =>
    cases h' with
    | scalar hn => exact absurd hn.isSome_kind? Bool.false_ne_true
    | sequence _ hns' =>
      have hunique : Relator.RightUnique NormalScalar := fun _ _ _ hn hn' => hn.unique hn'
      rw [hunique.forall₂ hns hns']

/-! ## Members -/

/-- Whether a value, if it is an integer, has at most 32 bits. -/
def Narrow (v : Native) : Prop :=
  ∀ i, v.integer? = some i → -0x80000000 ≤ i ∧ i ≤ 0x7fffffff

/-- The members for a scalar of a kind and for a list of such scalars. Integers have narrow members
and wide ones, and one wide integer is enough for the wide ones. -/
inductive Members (vs : List Native) : ScalarKind → String → String → Prop
  | bool : Members vs .bool "bool_val" "bool_list_val"
  | narrow : (∀ v ∈ vs, v.Narrow) → Members vs .integer "int32_val" "int32_list_val"
  | wide : (¬ ∀ v ∈ vs, v.Narrow) → Members vs .integer "int64_val" "int64_list_val"
  | real : Members vs .real "double_val" "double_list_val"
  | text : Members vs .text "string_val" "string_list_val"
  | bytes : Members vs .bytes "bytes_val" "bytes_list_val"

/-- The member for a value. -/
inductive Member : Native → String → Prop
  | none : Member .none "null_val"
  | scalar {v : Native} {k : ScalarKind} {m ms : String} :
      v.kind? = some k → Members [v] k m ms → Member v m
  | sequence {type : CollectionType} {items : List Native} {k : ScalarKind} {m ms : String} :
      type.IsSequence → ItemsOf k items → Members items k m ms → Member (.collection type items) ms

theorem Members.unique {vs : List Native} {k : ScalarKind} {m ms m' ms' : String}
    (h : Members vs k m ms) (h' : Members vs k m' ms') : m = m' ∧ ms = ms' := by
  cases h with
  | narrow hnarrow =>
    cases h' with
    | narrow => exact ⟨rfl, rfl⟩
    | wide hwide => exact absurd hnarrow hwide
  | wide hwide =>
    cases h' with
    | narrow hnarrow => exact absurd hnarrow hwide
    | wide => exact ⟨rfl, rfl⟩
  | _ => cases h'; exact ⟨rfl, rfl⟩

/-- No value has two members. -/
theorem Member.unique {v : Native} {m m' : String} (h : v.Member m) (h' : v.Member m') :
    m = m' := by
  cases h with
  | none =>
    cases h' with
    | none => rfl
    | scalar hk => cases hk
  | scalar hk hm =>
    cases h' with
    | none => cases hk
    | scalar hk' hm' =>
      obtain rfl := Option.some.inj (hk.symm.trans hk')
      exact (hm.unique hm').1
    | sequence => cases hk
  | sequence htype hitems hms =>
    cases h' with
    | scalar hk => cases hk
    | sequence _ hitems' hms' =>
      obtain rfl := hitems.unique hitems'
      exact (hms.unique hms').2

section Permutations

variable {items items' : List Native} (hperm : items.Perm items')

include hperm

theorem ItemsOf.perm {k : ScalarKind} (h : ItemsOf k items) : ItemsOf k items' :=
  ⟨fun hnil => h.1 (hnil ▸ hperm).eq_nil, fun v hv => h.2 v (hperm.mem_iff.2 hv)⟩

theorem Members.perm {k : ScalarKind} {m ms : String} (h : Members items k m ms) :
    Members items' k m ms := by
  have hnarrow : (∀ v ∈ items, v.Narrow) ↔ ∀ v ∈ items', v.Narrow :=
    forall_congr' fun v => by rw [hperm.mem_iff]
  cases h with
  | narrow h => exact .narrow (hnarrow.1 h)
  | wide h => exact .wide (mt hnarrow.2 h)
  | bool => exact .bool
  | real => exact .real
  | text => exact .text
  | bytes => exact .bytes

/-- The member for a list is the one for all its permutations. -/
theorem Member.perm {type : CollectionType} {m : String} (h : (collection type items).Member m) :
    (collection type items').Member m := by
  cases h with
  | scalar hk => cases hk
  | sequence htype hitems hms => exact .sequence htype (hitems.perm hperm) (hms.perm hperm)

theorem Proper.perm {type : CollectionType} (h : (collection type items).Proper) :
    (collection type items').Proper :=
  fun num den hmem => h num den (hperm.mem_iff.2 hmem)

theorem Supported.perm {type : CollectionType} (h : (collection type items).Supported) :
    (collection type items').Supported := by
  obtain ⟨htype, ⟨k, hitems⟩, hfits⟩ := supported_collection_iff.1 h
  exact .sequence htype (hitems.perm hperm) fun v hv => hfits v (hperm.mem_iff.2 hv)

theorem Overflows.perm {type : CollectionType} (h : (collection type items).Overflows) :
    (collection type items').Overflows := by
  obtain ⟨htype, hitems, v, hv, hhuge⟩ := overflows_collection_iff.1 h
  exact .sequence htype (hitems.perm hperm) (hperm.mem_iff.1 hv) hhuge

/-- A permutation of a list that is converted is converted. -/
theorem exists_infer_perm {type : CollectionType} {w : Value}
    (hproper : (collection type items).Proper) (h : (collection type items).infer = .ok w) :
    ∃ w', (collection type items').infer = .ok w' := by
  obtain ⟨hsupported, hfinite⟩ := (infer_ends hproper).ok_iff.1 ⟨w, h⟩
  exact (infer_ends (Proper.perm hperm hproper)).ok_iff.2
    ⟨hsupported.perm hperm, fun hoverflows => hfinite (hoverflows.perm hperm.symm)⟩

end Permutations

/-! ## Scalars -/

section Integers

variable {i : Int} {is : List Int}

theorem fitsInt32_iff : fitsInt32 i = true ↔ -0x80000000 ≤ i ∧ i ≤ 0x7fffffff := by
  simp [fitsInt32]

theorem unwrap_ofInteger (h : -0x8000000000000000 ≤ i ∧ i ≤ 0x7fffffffffffffff) :
    (Content.ofInteger i).unwrap = .int i := by
  rw [Content.ofInteger]
  split
  · rename_i hnarrow
    have := fitsInt32_iff.1 hnarrow
    rw [Content.unwrap, Int32.toInt_ofInt_of_le] <;> omega
  · rw [Content.unwrap, Int64.toInt_ofInt_of_le] <;> omega

theorem unwrap_ofIntegers (h : ∀ i ∈ is, -0x8000000000000000 ≤ i ∧ i ≤ 0x7fffffffffffffff) :
    (Content.ofIntegers is).unwrap = .list (is.map .int) := by
  rw [Content.ofIntegers]
  split
  · rename_i hnarrow
    rw [Content.unwrap, ListMessage.unwrap, ListMessage.ofList, List.map_map]
    congr 1
    refine List.map_congr_left fun i hi => ?_
    have := fitsInt32_iff.1 (List.all_eq_true.1 hnarrow i hi)
    rw [Function.comp_apply, Int32.toInt_ofInt_of_le] <;> omega
  · rw [Content.unwrap, ListMessage.unwrap, ListMessage.ofList, List.map_map]
    congr 1
    refine List.map_congr_left fun i hi => ?_
    have := h i hi
    rw [Function.comp_apply, Int64.toInt_ofInt_of_le] <;> omega

end Integers

section Scalars

variable {v : Native}

theorem normalScalar_of_bool? {b : Bool} (h : v.bool? = some b) : v.NormalScalar (.bool b) := by
  cases v <;> cases h
  exact .bool b

theorem normalScalar_of_real? {x : Double} (hv : ∀ num den, v = .fraction num den → 0 < den)
    (h : v.real? = some (.ok x)) : v.NormalScalar (.float x) := by
  cases v with
  | float =>
    cases h
    exact .float x
  | fraction num den =>
    refine .fraction (Double.isNearest_of_ofFraction? (hv num den rfl) ?_)
    rw [real?, Option.some.injEq] at h
    cases hfloat : Double.ofFraction? (decide (num < 0)) num.natAbs den <;> rw [hfloat]
      at h <;> cases h
    rfl
  | _ => cases h

theorem normalScalar_of_text? {s : String} (h : v.text? = some s) : v.NormalScalar (.text s) := by
  cases v <;> cases h
  exact .text s

theorem normalScalar_of_bytes? {content : Bytes} (h : v.bytes? = some content) :
    v.NormalScalar (.bytes content) := by
  cases v with
  | octets type =>
    cases type <;> cases h
    · exact .bytes content
    · exact .byteArray content
  | _ => cases h

theorem narrow_iff {i : Int} (hi : v.integer? = some i) : v.Narrow ↔ fitsInt32 i = true := by
  simp [Narrow, hi, fitsInt32_iff]

theorem member_ofInteger {i : Int} (hi : v.integer? = some i) :
    v.Member (Content.ofInteger i).member := by
  have hnarrow : (∀ u ∈ [v], u.Narrow) ↔ fitsInt32 i = true := by
    rw [List.forall_mem_singleton, narrow_iff hi]
  rw [Content.ofInteger]
  split
  · rename_i h
    exact .scalar (kind?_of_integer? hi) (.narrow (hnarrow.2 h))
  · rename_i h
    exact .scalar (kind?_of_integer? hi) (.wide (mt hnarrow.1 h))

/-- A scalar that is converted unwraps to its normal form and is held in the member of its kind. -/
theorem inferScalar?_normal {k : ScalarKind} {c : Content} (hk : v.kind? = some k)
    (hv : ∀ num den, v = .fraction num den → 0 < den) (h : v.inferScalar? = some (.ok c)) :
    v.NormalScalar c.unwrap ∧ v.Member c.member := by
  cases k with
  | bool =>
    obtain ⟨b, hb⟩ := exists_read bool?_eq_none_iff hk
    cases (inferScalar?_of_bool? hb).symm.trans h
    exact ⟨normalScalar_of_bool? hb, .scalar hk .bool⟩
  | integer =>
    obtain ⟨i, hi⟩ := exists_read integer?_eq_none_iff hk
    rw [inferScalar?_of_integer? hi, Option.some.injEq, Except.map_eq_ok_iff] at h
    obtain ⟨j, hj, rfl⟩ := h
    obtain ⟨rfl, hfits⟩ := checkInt64_eq_ok_iff.1 hj
    exact ⟨unwrap_ofInteger hfits ▸ .integer hi, member_ofInteger hi⟩
  | real =>
    obtain ⟨o, ho⟩ := exists_read real?_eq_none_iff hk
    rw [inferScalar?_of_real? ho, Option.some.injEq, Except.map_eq_ok_iff] at h
    obtain ⟨x, rfl, rfl⟩ := h
    exact ⟨normalScalar_of_real? hv ho, .scalar hk .real⟩
  | text =>
    obtain ⟨s, hs⟩ := exists_read text?_eq_none_iff hk
    cases (inferScalar?_of_text? hs).symm.trans h
    exact ⟨normalScalar_of_text? hs, .scalar hk .text⟩
  | bytes =>
    obtain ⟨content, hcontent⟩ := exists_read bytes?_eq_none_iff hk
    cases (inferScalar?_of_bytes? hcontent).symm.trans h
    exact ⟨normalScalar_of_bytes? hcontent, .scalar hk .bytes⟩

end Scalars

/-! ## Lists -/

section Lists

variable {items : List Native}

/-- What is read from the items are their normal forms, if it is so for each of them. -/
theorem forall₂_normalScalar {α : Type} {Reads : Native → α → Prop} {f : α → Native} {as : List α}
    (hread : List.Forall₂ Reads items as) (h : ∀ v ∈ items, ∀ a, Reads v a → v.NormalScalar (f a)) :
    List.Forall₂ NormalScalar items (as.map f) := by
  rw [List.forall₂_map_right_iff]
  exact ((List.forall₂_and_left ..).2 ⟨h, hread⟩).imp fun v a hva => hva.1 a hva.2

theorem members_ofIntegers {is : List Int} (h : items.mapM integer? = some is) :
    ∃ m, Members items .integer m (Content.ofIntegers is).member := by
  have hnarrow : (∀ v ∈ items, v.Narrow) ↔ is.all fitsInt32 = true := by
    rw [List.all_eq_true]
    have hread := mapM_eq_some_iff.1 h
    clear h
    induction hread with
    | nil => simp
    | cons hi _ ih => simp only [List.forall_mem_cons, narrow_iff hi, ih]
  rw [Content.ofIntegers]
  split
  · rename_i hall
    exact ⟨_, .narrow (hnarrow.2 hall)⟩
  · rename_i hall
    exact ⟨_, .wide (mt hnarrow.1 hall)⟩

/-- The integers of a list that is converted are those that were read. -/
theorem mapM_checkInt64_eq_ok {is js : List Int} (h : is.mapM checkInt64 = .ok js) :
    js = is ∧ ∀ i ∈ is, -0x8000000000000000 ≤ i ∧ i ≤ 0x7fffffffffffffff := by
  have hcheck := mapM_eq_ok_iff.1 h
  clear h
  induction hcheck with
  | nil => simp
  | cons hi _ ih =>
    obtain ⟨rfl, hfits⟩ := checkInt64_eq_ok_iff.1 hi
    obtain ⟨rfl, hall⟩ := ih
    exact ⟨rfl, List.forall_mem_cons.2 ⟨hfits, hall⟩⟩

theorem mapM_id_eq_ok {os : List (Except InferenceFault Double)} {xs : List Double}
    (h : os.mapM id = .ok xs) : os = xs.map .ok := by
  have hread := mapM_eq_ok_iff.1 h
  clear h
  induction hread with
  | nil => rfl
  | cons hx _ ih => rw [ih, List.map_cons, ← hx, id]

/-- A list that is converted unwraps to the list of its items' normal forms and is held in the
member of their kind. -/
theorem inferList_normal {c : Content} (hproper : ∀ num den, fraction num den ∈ items → 0 < den)
    (h : inferList items = .ok c) :
    ∃ k ns m, ItemsOf k items ∧ List.Forall₂ NormalScalar items ns ∧ c.unwrap = .list ns ∧
      Members items k m c.member := by
  have hnonempty : items ≠ [] := by
    rintro rfl
    cases h
  have hinfer : inferItems? items = some (.ok c) := by
    rw [inferList, if_neg (by simpa using hnonempty)] at h
    cases hitems : inferItems? items with
    | none => simp [hitems] at h
    | some o => rw [← h, hitems, Option.getD_some]
  by_cases hkind : ∃ k, ItemsOf k items
  case neg =>
    rw [inferItems?_eq_none fun k hall => hkind ⟨k, hnonempty, hall⟩] at hinfer
    cases hinfer
  obtain ⟨k, hk⟩ := hkind
  -- in each kind: the items as they are read, their normal forms, and the member that holds them
  cases k with
  | bool =>
    obtain ⟨bs, hread, hbs⟩ := inferItems?_bool hk
    cases hbs.symm.trans hinfer
    exact ⟨_, _, _, hk, forall₂_normalScalar (mapM_eq_some_iff.1 hread) fun v _ b =>
      normalScalar_of_bool?, rfl, .bool⟩
  | integer =>
    obtain ⟨is, hread, his⟩ := inferItems?_integer hk
    rw [his, Option.some.injEq, Except.map_eq_ok_iff] at hinfer
    obtain ⟨js, hjs, rfl⟩ := hinfer
    obtain ⟨rfl, hfits⟩ := mapM_checkInt64_eq_ok hjs
    obtain ⟨m, hm⟩ := members_ofIntegers hread
    exact ⟨_, _, m, hk, forall₂_normalScalar (mapM_eq_some_iff.1 hread) fun v _ i => .integer,
      unwrap_ofIntegers hfits, hm⟩
  | real =>
    obtain ⟨os, hread, hos⟩ := inferItems?_real hk
    rw [hos, Option.some.injEq, Except.map_eq_ok_iff] at hinfer
    obtain ⟨xs, hxs, rfl⟩ := hinfer
    obtain rfl := mapM_id_eq_ok hxs
    have hfloats : List.Forall₂ (fun v x => v.real? = some (.ok x)) items xs := by
      have hreads := mapM_eq_some_iff.1 hread
      rwa [List.forall₂_map_right_iff] at hreads
    exact ⟨_, _, _, hk,
      forall₂_normalScalar hfloats fun v hv x => normalScalar_of_real? fun num den heq =>
      hproper num den (heq ▸ hv), rfl, .real⟩
  | text =>
    obtain ⟨ss, hread, hss⟩ := inferItems?_text hk
    cases hss.symm.trans hinfer
    exact ⟨_, _, _, hk, forall₂_normalScalar (mapM_eq_some_iff.1 hread) fun v _ s =>
      normalScalar_of_text?, rfl, .text⟩
  | bytes =>
    obtain ⟨bs, hread, hbs⟩ := inferItems?_bytes hk
    cases hbs.symm.trans hinfer
    exact ⟨_, _, _, hk, forall₂_normalScalar (mapM_eq_some_iff.1 hread) fun v _ content =>
      normalScalar_of_bytes?, rfl, .bytes⟩

end Lists

/-! ## All values -/

/-- A value that is converted unwraps to its normal form and is held in the member for it. -/
theorem infer_normal_of_ok {v : Native} {w : Value} (hv : v.Proper) (hvalue : ∀ u, v ≠ .value u)
    (h : v.infer = .ok w) : v.NormalForm w.unwrap ∧ ∃ m, w.member? = some m ∧ v.Member m := by
  by_cases hsequence : ∃ type items, type.IsSequence ∧ v = .collection type items
  · obtain ⟨type, items, htype, rfl⟩ := hsequence
    rw [infer_sequence htype, Except.map_eq_ok_iff] at h
    obtain ⟨c, hc, rfl⟩ := h
    obtain ⟨k, ns, m, hitems, hns, hunwrap, hmembers⟩ := inferList_normal hv hc
    refine ⟨?_, _, rfl, .sequence htype hitems hmembers⟩
    rw [show (Value.ofContent c).unwrap = c.unwrap from rfl, hunwrap]
    exact .sequence htype hns
  -- what is left after lists is a scalar of one kind, no value at all, or refused
  cases hkind : v.kind? with
  | some k =>
    have hproper : ∀ num den, v = .fraction num den → 0 < den := by
      rintro num den rfl
      exact hv
    obtain ⟨o, ho, -⟩ := inferScalar?_ends hkind hproper
    rw [infer_of_inferScalar? ho, Except.map_eq_ok_iff] at h
    obtain ⟨c, rfl, rfl⟩ := h
    obtain ⟨hnormal, hmember⟩ := inferScalar?_normal hkind hproper ho
    exact ⟨.scalar hnormal, _, rfl, hmember⟩
  | none =>
    by_cases hnone : v = .none
    · subst hnone
      cases h
      exact ⟨.none, _, rfl, .none⟩
    rw [infer_other hnone hvalue hkind fun type items htype heq =>
      hsequence ⟨type, items, htype, heq⟩] at h
    cases h

/-- Inference loses nothing and takes the member of the value's kind: what was converted unwraps to
the normal form of the value, the member is the one for the value, and a list that is permuted is
converted again, to the same member. -/
theorem infer_normal {v : Native} {w : Value} (hv : v.Proper) (hvalue : ∀ u, v ≠ .value u)
    (h : v.infer = .ok w) :
    (∀ n, w.unwrap = n ↔ v.NormalForm n) ∧ (∀ m, w.member? = some m ↔ v.Member m) ∧
      ∀ type items items', v = .collection type items → items.Perm items' →
        ∃ w', (collection type items').infer = .ok w' ∧ w'.member? = w.member? := by
  obtain ⟨hnormal, m, hm, hmember⟩ := infer_normal_of_ok hv hvalue h
  refine ⟨fun n => ?_, fun m' => ?_, ?_⟩
  · exact ⟨fun heq => heq ▸ hnormal, hnormal.unique⟩
  · rw [hm, Option.some.injEq]
    exact ⟨fun heq => heq ▸ hmember, hmember.unique⟩
  · rintro type items items' rfl hperm
    obtain ⟨w', hw'⟩ := exists_infer_perm hperm hv h
    obtain ⟨-, m', hm', hmember'⟩ := infer_normal_of_ok (Proper.perm hperm hv) nofun hw'
    exact ⟨w', hw', by rw [hm, hm', (hmember.perm hperm).unique hmember']⟩

/-- A tuple of a field status and a wide integer becomes a list of wide integers, in either
order. -/
theorem infer_normal_status :
    (collection .tuple [.status .present, .int 0x80000000]).NormalForm
      (list [.int 1, .int 0x80000000]) ∧
      (collection .tuple [.status .present, .int 0x80000000]).Member "int64_list_val" ∧
      ∃ w, (collection .tuple [.int 0x80000000, .status .present]).infer = .ok w ∧
        w.member? = some "int64_list_val" := by
  have h : (collection .tuple [.status .present, .int 0x80000000]).infer =
      .ok (.ofContent (.int64List (.ofList [1, 0x80000000]))) := by rfl
  obtain ⟨hnormal, hmember, hperm⟩ := infer_normal (by simp [Proper]) (by simp) h
  obtain ⟨w, hw, hsame⟩ := hperm _ _ [.int 0x80000000, .status .present] rfl (.swap ..)
  exact ⟨(hnormal _).1 rfl, (hmember _).1 rfl, w, hw, hsame⟩

end Native

end OnlineFeatures
