import Mathlib.Data.List.Nodup
import Mathlib.Data.List.Perm.Subperm
import WorkflowFile.Arguments
import WorkflowFile.OrderedSet

/-!
# What an ordered map holds after a series of writes

* `valueUnder?` on lists: appended, reversed and pruned lists, and membership when no key
  occurs twice;
* `OrderedMap.get?` after `insert`, `insertAll`, `ofList` and `merge`: the last write wins;
* the order of the entries: keys that are new go to the end, one after the other
  (`entries_insertAll_of_nodup`, `entries_merge_of_nodup`), and a key that is there keeps its place
  (`keys_insertAll`, `keys_merge`);
* pruned pairs can be told from the entries behind them (`present_append_inj`);
* what is in a map was written (`mem_entries_insertAll`, `mem_entries_merge`);
* `OrderedMap.erase` leaves out a key, before or after a series of writes (`erase_merge`);
* `OrderedMap.adjust` changes the value under a key, before or after a write (`adjust_insert`);
* `OrderedMap.get?_eq_of_agree` and `OrderedSet.perm_of_agree`: maps that are compared as equal hold
  the same values, and sets the same members.
-/

namespace WorkflowFile

section Lookup

variable {κ α β : Type} [DecidableEq κ]

lemma valueUnder?_append (k : κ) (es fs : List (κ × α)) :
    valueUnder? k (es ++ fs) = (valueUnder? k es).or (valueUnder? k fs) := by
  induction es with
  | nil => simp [valueUnder?]
  | cons e es ih =>
    simp only [List.cons_append, valueUnder?]
    split
    · simp
    · exact ih

/-- A key has a value exactly if it occurs. -/
lemma valueUnder?_eq_none_iff {k : κ} {es : List (κ × α)} :
    valueUnder? k es = none ↔ k ∉ es.map Prod.fst := by
  induction es with
  | nil => simp [valueUnder?]
  | cons e es ih =>
    simp only [valueUnder?, List.map_cons, List.mem_cons]
    split
    · next h => simp [h]
    · next h => rw [ih]; simp [Ne.symm h]

lemma mem_of_valueUnder?_eq_some {k : κ} {v : α} {es : List (κ × α)}
    (h : valueUnder? k es = some v) : (k, v) ∈ es := by
  induction es with
  | nil => simp [valueUnder?] at h
  | cons e es ih =>
    simp only [valueUnder?] at h
    split at h
    · next hk =>
      obtain ⟨a, b⟩ := e
      simp_all
    · exact List.mem_cons_of_mem _ (ih h)

/-- Where no key occurs twice, the entries are the values. -/
lemma valueUnder?_eq_some_iff {k : κ} {v : α} {es : List (κ × α)}
    (distinct : (es.map Prod.fst).Nodup) : valueUnder? k es = some v ↔ (k, v) ∈ es := by
  refine ⟨mem_of_valueUnder?_eq_some, fun h => ?_⟩
  induction es with
  | nil => simp at h
  | cons e es ih =>
    simp only [List.map_cons, List.nodup_cons] at distinct
    simp only [valueUnder?]
    rcases List.mem_cons.1 h with rfl | h
    · simp
    · have hk : e.1 ≠ k := by
        rintro rfl
        exact distinct.1 (List.mem_map.2 ⟨_, h, rfl⟩)
      rw [if_neg hk]
      exact ih distinct.2 h

/-- Where no key occurs twice, the direction of a search does not matter. -/
lemma valueUnder?_reverse (k : κ) {es : List (κ × α)} (distinct : (es.map Prod.fst).Nodup) :
    valueUnder? k es.reverse = valueUnder? k es := by
  have distinct' : (es.reverse.map Prod.fst).Nodup := by
    rwa [List.map_reverse, List.nodup_reverse]
  ext v
  rw [valueUnder?_eq_some_iff distinct', valueUnder?_eq_some_iff distinct, List.mem_reverse]

lemma valueUnder?_map (f : α → β) (k : κ) (es : List (κ × α)) :
    valueUnder? k (es.map fun e => (e.1, f e.2)) = (valueUnder? k es).map f := by
  induction es with
  | nil => rfl
  | cons e es ih =>
    simp only [List.map_cons, valueUnder?]
    split
    · rfl
    · exact ih

omit [DecidableEq κ] in
lemma keys_present_sublist (pairs : List (κ × Option α)) :
    ((present pairs).map Prod.fst).Sublist (pairs.map Prod.fst) := by
  induction pairs with
  | nil => exact List.Sublist.refl _
  | cons pair pairs ih =>
    obtain ⟨k, _ | v⟩ := pair
    · exact ih.cons k
    · exact ih.cons_cons k

/-- Pruning leaves the value of every key that stands once. -/
lemma valueUnder?_present (k : κ) {pairs : List (κ × Option α)}
    (distinct : (pairs.map Prod.fst).Nodup) :
    valueUnder? k (present pairs) = (valueUnder? k pairs).join := by
  induction pairs with
  | nil => rfl
  | cons pair pairs ih =>
    simp only [List.map_cons, List.nodup_cons] at distinct
    obtain ⟨a, _ | v⟩ := pair
    · by_cases h : a = k
      · subst h
        have absent : a ∉ (present pairs).map Prod.fst := fun h =>
          distinct.1 ((keys_present_sublist pairs).subset h)
        rw [show present ((a, none) :: pairs) = present pairs from rfl,
          valueUnder?_eq_none_iff.2 absent]
        simp [valueUnder?]
      · rw [show present ((a, none) :: pairs) = present pairs from rfl, ih distinct.2]
        simp [valueUnder?, h]
    · rw [show present ((a, some v) :: pairs) = (a, v) :: present pairs from rfl]
      simp only [valueUnder?]
      split
      · rfl
      · exact ih distinct.2

omit [DecidableEq κ] in
/-- A key that is neither declared nor among other entries does not come first. -/
lemma present_append_ne_cons {k : κ} {v : α} {pairs : List (κ × Option α)} {es fs : List (κ × α)}
    (undeclared : k ∉ pairs.map Prod.fst) (absent : k ∉ es.map Prod.fst) :
    present pairs ++ es ≠ (k, v) :: fs := by
  intro h
  have first : (k, v) ∈ present pairs ++ es := h ▸ List.mem_cons_self
  rcases List.mem_append.1 first with declared | other
  · exact undeclared ((keys_present_sublist pairs).subset (List.mem_map.2 ⟨_, declared, rfl⟩))
  · exact absent (List.mem_map.2 ⟨_, other, rfl⟩)

omit [DecidableEq κ] in
/-- Pruned pairs that declare the same keys can be told from each other and from the entries
behind them, as long as those have other keys. -/
theorem present_append_inj {pairs pairs' : List (κ × Option α)} {es es' : List (κ × α)}
    (same_keys : pairs.map Prod.fst = pairs'.map Prod.fst)
    (distinct : (pairs.map Prod.fst).Nodup)
    (apart : ∀ k ∈ es.map Prod.fst, k ∉ pairs.map Prod.fst)
    (apart' : ∀ k ∈ es'.map Prod.fst, k ∉ pairs'.map Prod.fst)
    (h : present pairs ++ es = present pairs' ++ es') : pairs = pairs' ∧ es = es' := by
  induction pairs generalizing pairs' with
  | nil =>
    obtain rfl : pairs' = [] := by simpa using same_keys.symm
    exact ⟨rfl, h⟩
  | cons pair pairs ih =>
    obtain _ | ⟨pair', pairs'⟩ := pairs'
    · cases same_keys
    obtain ⟨k, v⟩ := pair
    obtain ⟨k', v'⟩ := pair'
    obtain ⟨rfl, same_rest⟩ : k = k' ∧ pairs.map Prod.fst = pairs'.map Prod.fst := by
      simpa using same_keys
    simp only [List.map_cons, List.nodup_cons] at distinct
    simp only [List.map_cons, List.mem_cons, not_or] at apart apart'
    have rest := ih same_rest distinct.2 (fun a ha => (apart a ha).2) (fun a ha => (apart' a ha).2)
    -- the key itself is behind the head on neither side
    have absent : k ∉ es.map Prod.fst := fun hk => (apart k hk).1 rfl
    have absent' : k ∉ es'.map Prod.fst := fun hk => (apart' k hk).1 rfl
    have undeclared' : k ∉ pairs'.map Prod.fst := same_rest ▸ distinct.1
    cases v with
    | none =>
      cases v' with
      | none =>
        obtain ⟨rfl, rfl⟩ := rest h
        exact ⟨rfl, rfl⟩
      | some b =>
        have : present pairs ++ es = (k, b) :: (present pairs' ++ es') := h
        exact absurd this (present_append_ne_cons distinct.1 absent)
    | some a =>
      cases v' with
      | none =>
        have : present pairs' ++ es' = (k, a) :: (present pairs ++ es) := h.symm
        exact absurd this (present_append_ne_cons undeclared' absent')
      | some b =>
        have heads : (k, a) = (k, b) ∧ present pairs ++ es = present pairs' ++ es' :=
          List.cons.inj h
        obtain ⟨rfl, rfl⟩ := rest heads.2
        obtain ⟨-, rfl⟩ := Prod.mk.inj heads.1
        exact ⟨rfl, rfl⟩

end Lookup

section Writes

variable {κ α : Type} [DecidableEq κ]

lemma valueUnder?_putEntry (a k : κ) (v : α) (es : List (κ × α)) :
    valueUnder? a (putEntry k v es) = if k = a then some v else valueUnder? a es := by
  induction es with
  | nil => simp [putEntry, valueUnder?]
  | cons e es ih =>
    by_cases h : e.1 = k
    · subst h
      simp only [putEntry, if_pos, valueUnder?]
      split <;> rfl
    · rw [putEntry, if_neg h]
      simp only [valueUnder?, ih]
      by_cases ha : e.1 = a
      · have hk : k ≠ a := fun hk => h (ha.trans hk.symm)
        rw [if_pos ha, if_neg hk, if_pos ha]
      · rw [if_neg ha, if_neg ha]

/-- A new key goes to the end. -/
lemma putEntry_of_notMem {k : κ} {v : α} {es : List (κ × α)} (h : k ∉ es.map Prod.fst) :
    putEntry k v es = es ++ [(k, v)] := by
  induction es with
  | nil => rfl
  | cons e es ih =>
    simp only [List.map_cons, List.mem_cons, not_or] at h
    rw [putEntry, if_neg (Ne.symm h.1), ih h.2, List.cons_append]

/-- Writing an entry once more changes nothing. -/
lemma putEntry_putEntry (k : κ) (v : α) (es : List (κ × α)) :
    putEntry k v (putEntry k v es) = putEntry k v es := by
  induction es with
  | nil => simp [putEntry]
  | cons e es ih =>
    by_cases h : e.1 = k
    · simp [putEntry, h]
    · rw [putEntry, if_neg h, putEntry, if_neg h, ih]

/-- The value under a key is that of the first entry under it. -/
lemma valueUnder?_eq_head? (k : κ) (es : List (κ × α)) :
    valueUnder? k es = (es.filter (·.1 = k)).head?.map Prod.snd := by
  induction es with
  | nil => rfl
  | cons e es ih =>
    by_cases h : e.1 = k
    · simp [valueUnder?, h]
    · simp [valueUnder?, h, ih]

/-- A list in which nothing occurs twice has no repetitions to leave out. -/
lemma eraseDups_of_nodup {as : List κ} (distinct : as.Nodup) : as.eraseDups = as := by
  induction as with
  | nil => rfl
  | cons a as ih =>
    rw [List.nodup_cons] at distinct
    have others : as.filter (fun b => !b == a) = as := by
      rw [List.filter_eq_self]
      intro b hb
      have other : b ≠ a := fun same => distinct.1 (same ▸ hb)
      simpa using other
    rw [List.eraseDups_cons, others, ih distinct.2]

end Writes

namespace OrderedMap

variable {κ α : Type} [DecidableEq κ]

/-! ## Values -/

lemma get?_insert (m : OrderedMap κ α) (k : κ) (v : α) (a : κ) :
    (m.insert k v).get? a = if k = a then some v else m.get? a :=
  valueUnder?_putEntry a k v m.entries

/-- After a series of writes a key has the value that was written last. -/
theorem get?_insertAll (m : OrderedMap κ α) (es : List (κ × α)) (k : κ) :
    (m.insertAll es).get? k = (valueUnder? k es.reverse).or (m.get? k) := by
  induction es generalizing m with
  | nil => rfl
  | cons e es ih =>
    rw [insertAll_cons, ih, List.reverse_cons, valueUnder?_append, get?_insert]
    simp only [valueUnder?]
    split <;> simp

lemma get?_ofList (es : List (κ × α)) (k : κ) :
    (ofList es).get? k = valueUnder? k es.reverse := by
  rw [ofList, get?_insertAll]
  exact Option.or_none

lemma get?_map {β : Type} (f : α → β) (m : OrderedMap κ α) (k : κ) :
    (m.map f).get? k = (m.get? k).map f :=
  valueUnder?_map f k m.entries

/-- An extra entry wins over a declared pair. -/
theorem get?_merge {declared : List (κ × Option α)} {extra : List (κ × α)}
    (declared_distinct : (declared.map Prod.fst).Nodup)
    (extra_distinct : (extra.map Prod.fst).Nodup) (k : κ) :
    (merge declared extra).get? k
      = (valueUnder? k extra).or (valueUnder? k declared).join := by
  have present_distinct : ((present declared).map Prod.fst).Nodup :=
    declared_distinct.sublist (keys_present_sublist declared)
  rw [merge, ofPresent, get?_insertAll, get?_ofList, valueUnder?_reverse k extra_distinct,
    valueUnder?_reverse k present_distinct, valueUnder?_present k declared_distinct]

/-- Writing an entry once more changes nothing. -/
lemma insert_insert_self (m : OrderedMap κ α) (k : κ) (v : α) :
    (m.insert k v).insert k v = m.insert k v := by
  simp only [insert, putEntry_putEntry]

/-! ## Order -/

/-- Writes under new and distinct keys append the entries. -/
theorem entries_insertAll_of_nodup (m : OrderedMap κ α) (es : List (κ × α))
    (distinct : ((m.entries ++ es).map Prod.fst).Nodup) :
    (m.insertAll es).entries = m.entries ++ es := by
  induction es generalizing m with
  | nil => simp
  | cons e es ih =>
    have new : e.1 ∉ m.entries.map Prod.fst := by
      intro h
      rw [List.map_append, List.nodup_append] at distinct
      exact distinct.2.2 _ h _ (by simp) rfl
    have put : (m.insert e.1 e.2).entries = m.entries ++ [e] := putEntry_of_notMem new
    have rest := ih (m.insert e.1 e.2) (by rw [put]; simpa using distinct)
    rw [insertAll_cons, rest, put, List.append_assoc, List.singleton_append]

lemma entries_ofList_of_nodup (es : List (κ × α)) (distinct : (es.map Prod.fst).Nodup) :
    (ofList es).entries = es :=
  entries_insertAll_of_nodup empty es (by simpa [empty] using distinct)

/-- Declared pairs and extra entries that share no key stand one after the other. -/
theorem entries_merge_of_nodup {declared : List (κ × Option α)} {extra : List (κ × α)}
    (declared_distinct : (declared.map Prod.fst).Nodup)
    (extra_distinct : (extra.map Prod.fst).Nodup)
    (apart : ∀ k ∈ extra.map Prod.fst, k ∉ declared.map Prod.fst) :
    (merge declared extra).entries = present declared ++ extra := by
  have present_distinct : ((present declared).map Prod.fst).Nodup :=
    declared_distinct.sublist (keys_present_sublist declared)
  have first : (ofPresent declared).entries = present declared :=
    entries_ofList_of_nodup _ present_distinct
  rw [merge, entries_insertAll_of_nodup, first]
  rw [first, List.map_append]
  refine List.nodup_append.2 ⟨present_distinct, extra_distinct, ?_⟩
  rintro a ha b hb rfl
  exact apart a hb ((keys_present_sublist declared).subset ha)

/-- A write moves no key: a new one goes to the end. -/
lemma keys_insert (m : OrderedMap κ α) (k : κ) (v : α) :
    (m.insert k v).keys = if k ∈ m.keys then m.keys else m.keys ++ [k] := by
  show (putEntry k v m.entries).map Prod.fst
    = if k ∈ m.entries.map Prod.fst then m.entries.map Prod.fst else m.entries.map Prod.fst ++ [k]
  induction m.entries with
  | nil => simp [putEntry]
  | cons e es ih =>
    by_cases same : e.1 = k
    · simp [putEntry, same]
    · have other : k ≠ e.1 := Ne.symm same
      rw [putEntry, if_neg same, List.map_cons, ih, List.map_cons]
      by_cases there : k ∈ es.map Prod.fst
      · rw [if_pos there, if_pos (List.mem_cons_of_mem _ there)]
      · have absent : k ∉ e.1 :: es.map Prod.fst := by
          rw [List.mem_cons, not_or]
          exact ⟨other, there⟩
        rw [if_neg there, if_neg absent, List.cons_append]

/-- After a series of writes, the keys stand in the order in which they arrived first. -/
theorem keys_insertAll (m : OrderedMap κ α) (es : List (κ × α)) :
    (m.insertAll es).keys = (m.keys ++ es.map Prod.fst).eraseDups := by
  induction es generalizing m with
  | nil =>
    rw [insertAll_nil, List.map_nil, List.append_nil]
    exact (eraseDups_of_nodup m.distinct).symm
  | cons e es ih =>
    rw [insertAll_cons, ih, keys_insert, List.map_cons]
    split
    · next there =>
      rw [List.eraseDups_append, List.eraseDups_append, List.cons_removeAll, if_neg (by simpa)]
    · next absent => rw [List.append_assoc, List.singleton_append]

lemma keys_ofList (es : List (κ × α)) : (ofList es).keys = (es.map Prod.fst).eraseDups :=
  keys_insertAll empty es

/-- Extra keys that are declared already do not stand once more. -/
theorem keys_merge {declared : List (κ × Option α)} {extra : List (κ × α)}
    (declared_distinct : (declared.map Prod.fst).Nodup)
    (extra_distinct : (extra.map Prod.fst).Nodup) :
    (merge declared extra).keys = (present declared).map Prod.fst
      ++ (extra.map Prod.fst).filter (· ∉ (present declared).map Prod.fst) := by
  have present_distinct : ((present declared).map Prod.fst).Nodup :=
    declared_distinct.sublist (keys_present_sublist declared)
  have rest_eq : (extra.map Prod.fst).removeAll ((present declared).map Prod.fst)
      = (extra.map Prod.fst).filter (· ∉ (present declared).map Prod.fst) := by
    simp [List.removeAll]
  rw [merge, ofPresent, ofList, ← insertAll_append, ← ofList, keys_ofList, List.map_append,
    List.eraseDups_append, eraseDups_of_nodup present_distinct, rest_eq,
    eraseDups_of_nodup (extra_distinct.filter _)]

/-! ## Equality -/

omit [DecidableEq κ] in
/-- Two maps with the same entries are the same. -/
@[ext] lemma ext {m n : OrderedMap κ α} (h : m.entries = n.entries) : m = n := by
  cases m
  cases n
  simpa using h

omit [DecidableEq κ] in
lemma map_id (m : OrderedMap κ α) : m.map id = m := by
  apply ext
  exact List.map_id m.entries

omit [DecidableEq κ] in
lemma map_injective {β : Type} {f : α → β} (hf : f.Injective) :
    (map f : OrderedMap κ α → OrderedMap κ β).Injective := by
  intro m n h
  apply ext
  have entries_eq : m.entries.map (fun e => (e.1, f e.2)) = n.entries.map (fun e => (e.1, f e.2)) :=
    congrArg entries h
  refine List.map_injective_iff.2 (fun e e' he => ?_) entries_eq
  obtain ⟨keys_eq, values_eq⟩ := Prod.mk.inj he
  exact Prod.ext keys_eq (hf values_eq)

omit [DecidableEq κ] in
/-- Leaving out an empty map loses nothing. -/
lemma nonEmpty?_injective : (nonEmpty? : OrderedMap κ α → Option (OrderedMap κ α)).Injective := by
  intro m n h
  unfold nonEmpty? isEmpty at h
  split at h
  · next empty =>
    split at h
    · next empty' =>
      rw [List.isEmpty_iff] at empty empty'
      exact ext (empty.trans empty'.symm)
    · cases h
  · split at h
    · cases h
    · exact Option.some.inj h

/-! ## Leaving out a key -/

/-- The map without the entry under a key. -/
def erase (m : OrderedMap κ α) (k : κ) : OrderedMap κ α :=
  ⟨m.entries.filter (·.1 ≠ k), m.distinct.sublist (List.filter_sublist.map Prod.fst)⟩

/-- A key that is left out may as well not be written. -/
lemma erase_insert_self (m : OrderedMap κ α) (k : κ) (v : α) :
    (m.insert k v).erase k = m.erase k := by
  apply ext
  show (putEntry k v m.entries).filter (·.1 ≠ k) = m.entries.filter (·.1 ≠ k)
  induction m.entries with
  | nil => simp [putEntry]
  | cons e es ih =>
    by_cases same : e.1 = k
    · simp [putEntry, same]
    · rw [putEntry, if_neg same, List.filter_cons, List.filter_cons, ih]

/-- A key that is not taken out can be written before or after another one is. -/
lemma erase_insert_of_ne (m : OrderedMap κ α) {k a : κ} (other : a ≠ k) (v : α) :
    (m.insert a v).erase k = (m.erase k).insert a v := by
  apply ext
  show (putEntry a v m.entries).filter (·.1 ≠ k) = putEntry a v (m.entries.filter (·.1 ≠ k))
  induction m.entries with
  | nil => simp [putEntry, other]
  | cons e es ih =>
    by_cases same : e.1 = a
    · simp [putEntry, same, other]
    · rw [putEntry, if_neg same]
      by_cases gone : e.1 = k
      · rw [List.filter_cons_of_neg (by simpa using gone), ih,
          List.filter_cons_of_neg (by simpa using gone)]
      · rw [List.filter_cons_of_pos (by simpa using gone), ih,
          List.filter_cons_of_pos (by simpa using gone), putEntry, if_neg same]

/-- After a series of writes, a key can as well be left out of what was there and of the writes. -/
lemma erase_insertAll (m : OrderedMap κ α) (es : List (κ × α)) (k : κ) :
    (m.insertAll es).erase k = (m.erase k).insertAll (es.filter (·.1 ≠ k)) := by
  induction es generalizing m with
  | nil => rfl
  | cons e es ih =>
    rw [insertAll_cons, ih]
    by_cases gone : e.1 = k
    · rw [List.filter_cons_of_neg (by simpa using gone), gone, erase_insert_self]
    · rw [List.filter_cons_of_pos (by simpa using gone), insertAll_cons, erase_insert_of_ne m gone]

/-- A key can as well be left out of the declared pairs and the extra entries. -/
theorem erase_merge (declared : List (κ × Option α)) (extra : List (κ × α)) (k : κ) :
    (merge declared extra).erase k
      = merge (declared.filter (·.1 ≠ k)) (extra.filter (·.1 ≠ k)) := by
  have present_filter : (present declared).filter (·.1 ≠ k)
      = present (declared.filter (·.1 ≠ k)) := by
    induction declared with
    | nil => rfl
    | cons pair declared ih =>
      obtain ⟨a, _ | v⟩ := pair <;> by_cases gone : a = k <;> simp_all [present]
  have nothing : (empty : OrderedMap κ α).erase k = empty := rfl
  simp only [merge, ofPresent, ofList, erase_insertAll, present_filter, nothing]

/-! ## Changing the value under a key -/

/-- The map with the value under a key replaced by its image. -/
def adjust (m : OrderedMap κ α) (k : κ) (f : α → α) : OrderedMap κ α :=
  ⟨m.entries.map fun e => (e.1, if e.1 = k then f e.2 else e.2), by
    simpa only [List.map_map, Function.comp_def] using m.distinct⟩

/-- Adjusting the value under a key changes what is found there, and nothing else. -/
lemma get?_adjust (m : OrderedMap κ α) (k : κ) (f : α → α) (a : κ) :
    (m.adjust k f).get? a = (m.get? a).map fun v => if a = k then f v else v := by
  show valueUnder? a (m.entries.map fun e => (e.1, if e.1 = k then f e.2 else e.2))
    = (valueUnder? a m.entries).map fun v => if a = k then f v else v
  induction m.entries with
  | nil => rfl
  | cons e es ih =>
    simp only [List.map_cons, valueUnder?]
    by_cases same : e.1 = a
    · rw [if_pos same, if_pos same, same]
      rfl
    · rw [if_neg same, if_neg same, ih]

/-- A value can as well be changed before it is written. -/
lemma adjust_insert (m : OrderedMap κ α) (k : κ) (f : α → α) (v : α) :
    (m.insert k v).adjust k f = (m.adjust k f).insert k (f v) := by
  apply ext
  show (putEntry k v m.entries).map (fun e => (e.1, if e.1 = k then f e.2 else e.2))
    = putEntry k (f v) (m.entries.map fun e => (e.1, if e.1 = k then f e.2 else e.2))
  induction m.entries with
  | nil => simp [putEntry]
  | cons e es ih =>
    by_cases same : e.1 = k
    · simp [putEntry, same]
    · rw [putEntry, if_neg same, List.map_cons, ih, List.map_cons, putEntry, if_neg same,
        if_neg same]

/-! ## Members -/

lemma get?_of_mem {m : OrderedMap κ α} {e : κ × α} (listed : e ∈ m.entries) :
    m.get? e.1 = some e.2 :=
  (valueUnder?_eq_some_iff m.distinct).2 listed

/-- What is in a map after a write was there before or is what is written. -/
lemma mem_entries_insert {m : OrderedMap κ α} {k : κ} {v : α} {e : κ × α}
    (h : e ∈ (m.insert k v).entries) : e ∈ m.entries ∨ e = (k, v) := by
  have found : (m.insert k v).get? e.1 = some e.2 := get?_of_mem h
  rw [get?_insert] at found
  split at found
  · next same =>
    cases found
    exact .inr (Prod.ext same.symm rfl)
  · exact .inl (mem_of_valueUnder?_eq_some found)

lemma mem_entries_insertAll {m : OrderedMap κ α} {es : List (κ × α)} {e : κ × α}
    (h : e ∈ (m.insertAll es).entries) : e ∈ m.entries ∨ e ∈ es := by
  induction es generalizing m with
  | nil => exact .inl h
  | cons f es ih =>
    rcases ih h with h | h
    · rcases mem_entries_insert h with h | rfl
      · exact .inl h
      · exact .inr List.mem_cons_self
    · exact .inr (List.mem_cons_of_mem f h)

lemma mem_of_mem_entries_ofList {es : List (κ × α)} {e : κ × α} (h : e ∈ (ofList es).entries) :
    e ∈ es :=
  (mem_entries_insertAll h).resolve_left List.not_mem_nil

/-- A map is not empty after a write. -/
lemma entries_insert_ne_nil {m : OrderedMap κ α} {k : κ} {v : α} : (m.insert k v).entries ≠ [] := by
  intro nothing
  have there : k ∈ (m.insert k v).entries.map Prod.fst := (mem_keys_putEntry ..).2 (.inl rfl)
  rw [nothing] at there
  cases there

lemma entries_ofList_ne_nil {es : List (κ × α)} (some_write : es ≠ []) :
    (ofList es).entries ≠ [] := by
  intro nothing
  obtain ⟨e, es, rfl⟩ := List.exists_cons_of_ne_nil some_write
  have there : e.1 ∈ (ofList (e :: es)).keys := by
    rw [keys_ofList, List.mem_eraseDups]
    exact List.mem_cons_self
  rw [keys, nothing] at there
  cases there

/-- What is in a merged map was declared or is extra. -/
lemma mem_entries_merge {declared : List (κ × Option α)} {extra : List (κ × α)} {e : κ × α}
    (h : e ∈ (merge declared extra).entries) : (e.1, some e.2) ∈ declared ∨ e ∈ extra := by
  rcases mem_entries_insertAll h with h | h
  · left
    obtain ⟨pair, listed, kept⟩ := List.mem_filterMap.1 (mem_of_mem_entries_ofList h)
    obtain ⟨v, set, rfl⟩ := Option.map_eq_some_iff.1 kept
    rwa [← set]
  · exact .inr h

omit [DecidableEq κ] in
lemma eq_empty_iff {m : OrderedMap κ α} : m = ∅ ↔ m.entries = [] :=
  ⟨fun h => h ▸ rfl, fun h => ext h⟩

lemma ofList_eq_empty_iff {es : List (κ × α)} : ofList es = ∅ ↔ es = [] := by
  rw [eq_empty_iff]
  constructor
  · intro nothing
    by_contra some_write
    exact entries_ofList_ne_nil some_write nothing
  · rintro rfl
    rfl

/-- A merged map is empty only if no declared pair has a value and there is no extra entry. -/
lemma merge_eq_empty_iff {declared : List (κ × Option α)} {extra : List (κ × α)} :
    merge declared extra = ∅ ↔ (∀ pair ∈ declared, pair.2 = none) ∧ extra = [] := by
  have all_writes : merge declared extra = ofList (present declared ++ extra) :=
    (insertAll_append ..).symm
  have unset_iff : present declared = [] ↔ ∀ pair ∈ declared, pair.2 = none := by simp [present]
  rw [all_writes, ofList_eq_empty_iff, List.append_eq_nil_iff, unset_iff]

omit [DecidableEq κ] in
@[simp] lemma nonEmpty?_eq_none_iff {m : OrderedMap κ α} : m.nonEmpty? = none ↔ m = ∅ := by
  rw [eq_empty_iff, ← List.isEmpty_iff, nonEmpty?, ite_eq_left_iff, isEmpty]
  simp

omit [DecidableEq κ] in
@[simp] lemma map_eq_empty_iff {β : Type} {f : α → β} {m : OrderedMap κ α} :
    m.map f = ∅ ↔ m = ∅ := by
  rw [eq_empty_iff, eq_empty_iff]
  exact List.map_eq_nil_iff

/-! ## Comparing -/

lemma agree_refl [DecidableEq α] (m : OrderedMap κ α) : m.agree (· == ·) m = true := by
  unfold agree
  rw [beq_self_eq_true, Bool.true_and, List.all_eq_true]
  intro e listed
  simp [get?_of_mem listed]

/-- Maps that agree have the same entries up to their order. -/
lemma perm_of_agree [DecidableEq α] {m n : OrderedMap κ α} (h : m.agree (· == ·) n = true) :
    m.entries.Perm n.entries := by
  unfold agree size at h
  rw [Bool.and_eq_true, beq_iff_eq, List.all_eq_true] at h
  obtain ⟨same_size, found⟩ := h
  have subset : m.entries ⊆ n.entries := by
    intro e listed
    obtain ⟨v, under, same⟩ := Option.any_eq_true .. |>.1 (found e listed)
    rw [← eq_of_beq same] at under
    exact mem_of_valueUnder?_eq_some under
  have within := List.subperm_of_subset (m.distinct.of_map _) subset
  exact within.perm_of_length_le (Nat.le_of_eq same_size.symm)

/-- Maps that agree have the same value under every key. -/
theorem get?_eq_of_agree [DecidableEq α] {m n : OrderedMap κ α}
    (h : m.agree (· == ·) n = true) (k : κ) : m.get? k = n.get? k := by
  ext v
  unfold get?
  rw [valueUnder?_eq_some_iff m.distinct, valueUnder?_eq_some_iff n.distinct]
  exact (perm_of_agree h).mem_iff

end OrderedMap

/-- Two sets with the same members in the same order are the same. -/
@[ext] lemma OrderedSet.ext {α : Type} {s t : OrderedSet α} (h : s.members = t.members) :
    s = t := by
  cases s
  cases t
  simpa using h

/-- The set without a member. -/
def OrderedSet.erase {α : Type} [DecidableEq α] (s : OrderedSet α) (a : α) : OrderedSet α :=
  ⟨s.members.filter (· ≠ a), s.distinct.sublist List.filter_sublist⟩

/-- A set without something that is not in it is the set itself. -/
lemma OrderedSet.erase_of_notMem {α : Type} [DecidableEq α] {s : OrderedSet α} {a : α}
    (new : a ∉ s.members) : s.erase a = s := by
  apply OrderedSet.ext
  show s.members.filter (· ≠ a) = s.members
  rw [List.filter_eq_self]
  intro b hb
  have other : b ≠ a := fun same => new (same ▸ hb)
  simpa using other

/-- Sets that agree have the same members up to their order. -/
lemma OrderedSet.perm_of_agree {α : Type} [DecidableEq α] {s t : OrderedSet α}
    (h : s.agree t = true) : s.members.Perm t.members := by
  unfold OrderedSet.agree at h
  rw [Bool.and_eq_true, beq_iff_eq, List.all_eq_true] at h
  have subset : s.members ⊆ t.members := fun a ha => of_decide_eq_true (h.2 a ha)
  have within := List.subperm_of_subset s.distinct subset
  exact within.perm_of_length_le (Nat.le_of_eq h.1.symm)

lemma OrderedSet.agree_of_perm {α : Type} [DecidableEq α] {s t : OrderedSet α}
    (perm : s.members.Perm t.members) : s.agree t = true := by
  unfold OrderedSet.agree
  rw [perm.length_eq, beq_self_eq_true, Bool.true_and, List.all_eq_true]
  exact fun a ha => decide_eq_true (perm.subset ha)

/-- Leaving out an empty list loses nothing. -/
lemma nonEmptyList?_injective {α : Type} :
    (nonEmptyList? : List α → Option (List α)).Injective := by
  intro as bs h
  cases as <;> cases bs <;> simp_all [nonEmptyList?]

end WorkflowFile
