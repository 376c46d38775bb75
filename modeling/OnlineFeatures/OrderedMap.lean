/-!
# Maps in the order of first insertion

A map from texts whose entries stand in the order in which their keys first came. Setting a key that
is there keeps its place.
-/

namespace OnlineFeatures

/-- A map from texts, in the order of first insertion. -/
structure OrderedMap (α : Type) where
  entries : List (String × α)
  nodup : (entries.map (·.1)).Nodup
  deriving DecidableEq, Repr

namespace OrderedMap

variable {α β : Type}

def empty : OrderedMap α := ⟨[], .nil⟩

/-- The keys in order. -/
def keys (m : OrderedMap α) : List String := m.entries.map (·.1)

/-- The value of a key. -/
def find? (m : OrderedMap α) (key : String) : Option α := m.entries.lookup key

def contains (m : OrderedMap α) (key : String) : Bool := (m.find? key).isSome

/-- Replaces the value of a key, or puts the key at the end. -/
def setEntry (key : String) (a : α) : List (String × α) → List (String × α)
  | [] => [(key, a)]
  | (k, b) :: rest => if key = k then (key, a) :: rest else (k, b) :: setEntry key a rest

theorem keys_setEntry (key : String) (a : α) (l : List (String × α)) :
    (setEntry key a l).map (·.1) =
      if key ∈ l.map (·.1) then l.map (·.1) else l.map (·.1) ++ [key] := by
  induction l with
  | nil => simp [setEntry]
  | cons p l ih =>
    rw [setEntry]
    split
    · rename_i h; simp [h]
    · rename_i h
      simp only [List.map_cons, ih, List.mem_cons, h, false_or]
      split <;> simp

/-- The map with a key set. -/
def set (m : OrderedMap α) (key : String) (a : α) : OrderedMap α :=
  ⟨setEntry key a m.entries, by
    rw [keys_setEntry]
    split
    · exact m.nodup
    · rename_i h
      exact List.nodup_append.2 ⟨m.nodup, by simp, by
        intro x hx y hy
        simp only [List.mem_singleton] at hy
        subst hy
        exact fun e => h (e ▸ hx)⟩⟩

/-- The map without a key. -/
def erase (m : OrderedMap α) (key : String) : OrderedMap α :=
  ⟨m.entries.filter (·.1 != key), m.nodup.sublist (List.filter_sublist.map _)⟩

/-- The map of a list of entries, of which the last of each key counts. -/
def ofList (l : List (String × α)) : OrderedMap α := l.foldl (fun m (k, a) => m.set k a) empty

/-- The map with a function applied to each value. -/
def mapValues (f : α → β) (m : OrderedMap α) : OrderedMap β :=
  ⟨m.entries.map fun (k, a) => (k, f a), by
    rw [List.map_map]; exact m.nodup⟩

end OrderedMap

end OnlineFeatures
