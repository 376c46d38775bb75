import OnlineFeatures.Wire.Message

/-!
# Maps

A map field is sent as one entry message for each key. Here it is an association list in the order
of its keys, so that two maps with the same entries are equal and are sent alike, however they were
built.
-/

namespace OnlineFeatures

/-- A map from texts, in the order of its keys. -/
structure FieldMap (α : Type) where
  entries : List (String × α)
  sorted : entries.Pairwise (·.1 < ·.1)
  deriving DecidableEq, Repr

namespace FieldMap

variable {α : Type}

theorem ext {m n : FieldMap α} (h : m.entries = n.entries) : m = n := by
  cases m; cases n; simp_all

def empty : FieldMap α := ⟨[], .nil⟩

/-- Puts an entry into its place. -/
def insertEntry (key : String) (a : α) : List (String × α) → List (String × α)
  | [] => [(key, a)]
  | (k, b) :: rest =>
    if key < k then (key, a) :: (k, b) :: rest
    else if key = k then (key, a) :: rest
    else (k, b) :: insertEntry key a rest

theorem mem_insertEntry {key : String} {a : α} {l : List (String × α)} {p : String × α}
    (h : p ∈ insertEntry key a l) : p = (key, a) ∨ p ∈ l := by
  induction l with
  | nil => simpa [insertEntry] using h
  | cons q l ih =>
    rw [insertEntry] at h
    split at h
    · simpa using h
    · split at h
      · simp only [List.mem_cons] at h ⊢
        exact h.imp id .inr
      · simp only [List.mem_cons] at h ⊢
        rcases h with h | h
        · exact .inr (.inl h)
        · exact (ih h).imp id .inr

theorem sorted_insertEntry (key : String) (a : α) {l : List (String × α)}
    (h : l.Pairwise (·.1 < ·.1)) : (insertEntry key a l).Pairwise (·.1 < ·.1) := by
  induction l with
  | nil => simp [insertEntry]
  | cons q l ih =>
    obtain ⟨hq, hl⟩ := List.pairwise_cons.1 h
    rw [insertEntry]
    split
    · rename_i lt
      refine List.pairwise_cons.2 ⟨fun p hp => ?_, h⟩
      rcases List.mem_cons.1 hp with rfl | hp
      · exact lt
      · exact String.lt_trans lt (hq p hp)
    · split
      · rename_i eq
        subst eq
        exact List.pairwise_cons.2 ⟨hq, hl⟩
      · rename_i nlt ne
        refine List.pairwise_cons.2 ⟨fun p hp => ?_, ih hl⟩
        rcases mem_insertEntry hp with rfl | hp
        · exact Std.lt_of_le_of_ne (String.not_lt.1 nlt) (Ne.symm ne)
        · exact hq p hp

/-- The map with one more entry; an entry of the same key is replaced. -/
def insert (m : FieldMap α) (key : String) (a : α) : FieldMap α :=
  ⟨insertEntry key a m.entries, sorted_insertEntry key a m.sorted⟩

/-- The map of a list of entries, of which the last of each key counts. -/
def ofList (l : List (String × α)) : FieldMap α := l.foldl (fun m (k, a) => m.insert k a) empty

/-- The value of a key. -/
def find? (m : FieldMap α) (key : String) : Option α := m.entries.lookup key

/-- The keys in order. -/
def keys (m : FieldMap α) : List String := m.entries.map (·.1)

end FieldMap

/-! ## Entries on the wire -/

/-- A type of map values, as field 2 of an entry. -/
class EntryValue (α : Type) where
  /-- The value of an entry without one. -/
  missing : α
  /-- Takes up a record of field 2 on top of an earlier one. -/
  absorb : Option α → Field → Reading α
  /-- The record of a value. -/
  write : α → Record
  /-- Whether an entry that is only kept, not entered, repeats the value. -/
  repeated : α → Bool

/-- One entry as it is read: its key and, if it came, its value. -/
structure MapEntry (α : Type) where
  key : String
  value : Option α
  unknown : List Record

namespace MapEntry

variable {α : Type} [EntryValue α]

def keyRecord (key : String) : Record := .bytes 1 (Utf8.encode key)

instance : Message (MapEntry α) where
  empty := ⟨"", none, []⟩
  absorb e r :=
    match r.field with
    | .bytes 1 content => (Utf8.decode? content).map fun key => { e with key }
    | f =>
      match EntryValue.absorb e.value f with
      | .taken a => some { e with value := some a }
      | .foreign => some { e with unknown := e.unknown ++ [r] }
      | .malformed => none
  records e :=
    (if e.key = "" then [] else [keyRecord e.key]) ++
      (e.value.filter EntryValue.repeated).toList.map EntryValue.write ++ e.unknown

end MapEntry

namespace FieldMap

variable {α : Type} [EntryValue α]

/-- What a record of a map field brings: an entry, or, when the entry holds unknown fields, a record
to be kept among the unknown ones of the enclosing message. -/
def readEntry? (number : Nat) (content : Bytes) : Option (String × α ⊕ Record) :=
  (Message.decode? (μ := MapEntry α) content).map fun e =>
    if e.unknown = [] then .inl (e.key, e.value.getD EntryValue.missing)
    else .inr (Message.nested number e)

/-- The record of an entry, with key and value both written. -/
def writeEntry (number : Nat) (entry : String × α) : Record :=
  .bytes number (Record.writeAll [MapEntry.keyRecord entry.1, EntryValue.write entry.2])

/-- The order in which entries are sent: that of the characters of their keys, with the end of a key
after every character, so that a key stands behind all that it begins. -/
def sentBefore : List Char → List Char → Bool
  | [], more => more.isEmpty
  | _ :: _, [] => true
  | c :: cs, d :: ds => decide (c < d) || (c == d && sentBefore cs ds)

/-- The records of a map. -/
def records (number : Nat) (m : FieldMap α) : List Record :=
  (m.entries.mergeSort fun a b => sentBefore a.1.toList b.1.toList).map (writeEntry number)

end FieldMap

/-- The number of an open enumeration. -/
instance : EntryValue Int32 where
  missing := 0
  absorb
    | _, .varint 2 v => .taken (VarintCoded.ofVarint v)
    | _, _ => .foreign
  write i := .varint 2 (VarintCoded.toVarint i)
  repeated i := i ≠ 0

end OnlineFeatures
