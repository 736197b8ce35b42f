/-!
# Ordered maps

A finite map that remembers the order in which its keys first arrived.

* `OrderedMap.insert` writes an entry: a new key goes to the end, a key that is already
  there keeps its place and takes the new value.
* `OrderedMap.ofList` writes entries one after the other, so the first occurrence of a
  key fixes its place and the last one its value.
* `OrderedMap.agree` compares two maps as maps, whatever the order of their entries.
-/

namespace WorkflowFile

/-- Writes `v` under `k`: in place if the key occurs, at the end otherwise. -/
def putEntry {κ α : Type} [DecidableEq κ] (k : κ) (v : α) : List (κ × α) → List (κ × α)
  | [] => [(k, v)]
  | e :: es => if e.1 = k then (k, v) :: es else e :: putEntry k v es

/-- The value of the first entry under `k`. -/
def valueUnder? {κ α : Type} [DecidableEq κ] (k : κ) : List (κ × α) → Option α
  | [] => none
  | e :: es => if e.1 = k then some e.2 else valueUnder? k es

/-- A key is present after a write if it was present before or is the one written. -/
theorem mem_keys_putEntry {κ α : Type} [DecidableEq κ] (k : κ) (v : α) (es : List (κ × α))
    (a : κ) : a ∈ (putEntry k v es).map Prod.fst ↔ a = k ∨ a ∈ es.map Prod.fst := by
  induction es with
  | nil => simp [putEntry]
  | cons e es ih =>
    by_cases h : e.1 = k
    · subst h
      simp [putEntry]
    · simp only [putEntry, if_neg h, List.map_cons, List.mem_cons, ih]
      exact or_left_comm

/-- A write keeps the keys distinct. -/
theorem nodup_putEntry {κ α : Type} [DecidableEq κ] (k : κ) (v : α) (es : List (κ × α))
    (distinct : (es.map Prod.fst).Nodup) : ((putEntry k v es).map Prod.fst).Nodup := by
  induction es with
  | nil => simp [putEntry]
  | cons e es ih =>
    simp only [List.map_cons, List.nodup_cons] at distinct
    by_cases h : e.1 = k
    · simp only [putEntry, if_pos h, List.map_cons, List.nodup_cons]
      exact h ▸ distinct
    · simp only [putEntry, if_neg h, List.map_cons, List.nodup_cons, mem_keys_putEntry]
      exact ⟨fun h' => h'.elim h distinct.1, ih distinct.2⟩

/-- A map with distinct keys whose entries stand in the order of their first arrival. -/
structure OrderedMap (κ α : Type) where
  /-- The entries in order. -/
  entries : List (κ × α)
  /-- No key occurs twice. -/
  distinct : (entries.map Prod.fst).Nodup
  deriving DecidableEq

namespace OrderedMap

variable {κ α β : Type}

/-- The map without entries. -/
def empty : OrderedMap κ α := ⟨[], by simp⟩

instance : EmptyCollection (OrderedMap κ α) := ⟨empty⟩

instance : Inhabited (OrderedMap κ α) := ⟨empty⟩

/-! ## Reading -/

/-- The keys in order. -/
def keys (m : OrderedMap κ α) : List κ := m.entries.map Prod.fst

/-- The number of entries. -/
def size (m : OrderedMap κ α) : Nat := m.entries.length

/-- Whether there is no entry. -/
def isEmpty (m : OrderedMap κ α) : Bool := m.entries.isEmpty

/-- The map itself, or nothing if it has no entry. -/
def nonEmpty? (m : OrderedMap κ α) : Option (OrderedMap κ α) :=
  if m.isEmpty then none else some m

/-- The value under a key. -/
def get? [DecidableEq κ] (m : OrderedMap κ α) (k : κ) : Option α := valueUnder? k m.entries

/-- Whether `m` and `n` hold the same keys with values related by `same`, in any order. -/
def agree [DecidableEq κ] (same : α → α → Bool) (m n : OrderedMap κ α) : Bool :=
  m.size == n.size && m.entries.all fun e => (n.get? e.1).any (same e.2)

/-! ## Writing -/

/-- Writes `v` under `k`, in place if the key is present. -/
def insert [DecidableEq κ] (m : OrderedMap κ α) (k : κ) (v : α) : OrderedMap κ α :=
  ⟨putEntry k v m.entries, nodup_putEntry k v m.entries m.distinct⟩

/-- Writes the entries one after the other. -/
def insertAll [DecidableEq κ] (m : OrderedMap κ α) (es : List (κ × α)) : OrderedMap κ α :=
  es.foldl (fun m e => m.insert e.1 e.2) m

/-- The map that writing the entries one after the other gives. -/
def ofList [DecidableEq κ] (es : List (κ × α)) : OrderedMap κ α := empty.insertAll es

/-- The map with every value replaced, in the same order. -/
def map (f : α → β) (m : OrderedMap κ α) : OrderedMap κ β :=
  ⟨m.entries.map fun e => (e.1, f e.2), by
    simpa only [List.map_map, Function.comp_def] using m.distinct⟩

/-- A write of no entries changes nothing. -/
@[simp] theorem insertAll_nil [DecidableEq κ] (m : OrderedMap κ α) : m.insertAll [] = m := rfl

/-- Writing a list of entries writes its head first. -/
@[simp] theorem insertAll_cons [DecidableEq κ] (m : OrderedMap κ α) (e : κ × α)
    (es : List (κ × α)) : m.insertAll (e :: es) = (m.insert e.1 e.2).insertAll es := rfl

end OrderedMap

end WorkflowFile
