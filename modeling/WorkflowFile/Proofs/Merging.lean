import Mathlib.Data.List.Induction
import WorkflowFile.Proofs.Records

/-!
# Collecting pairs in a map

Of the pairs that have a value, the first one under a key says where the key stands and the last
one which value it has. Extra entries count as pairs behind the declared ones.

* `OrderedMap.Collects` says this of a map. `OrderedMap.Collects.eq`: no other map is like that.
* `OrderedMap.Collects.absent` and `OrderedMap.Collects.insert` are about one more pair,
  `OrderedMap.Collects.insertAll` is about a series of them.
* `OrderedMap.entries_merge`: where everything stands if neither the pairs nor the entries repeat a
  key.
* `OrderedMap.eq_merge_iff_collects`: a merged map collects its pairs and entries, and so do the
  records of jobs and triggers.
* `OrderedMap.Assembly` are the ways to build up free entries, and
  `OrderedMap.merge_entries_result`: what is built up first can as well be written entry by entry.
-/

namespace WorkflowFile

/-! ## Pairs -/

section Pairs

variable {κ α : Type}

/-- Entries as pairs that have a value. -/
def asPairs (es : List (κ × α)) : List (κ × Option α) := es.map fun e => (e.1, some e.2)

@[simp] lemma present_asPairs (es : List (κ × α)) : present (asPairs es) = es := by
  induction es with
  | nil => rfl
  | cons e es ih => exact congrArg (e :: ·) ih

lemma present_append (pairs rest : List (κ × Option α)) :
    present (pairs ++ rest) = present pairs ++ present rest :=
  List.filterMap_append

lemma present_filter_isSome (pairs : List (κ × Option α)) :
    present (pairs.filter (·.2.isSome)) = present pairs := by
  induction pairs with
  | nil => rfl
  | cons pair pairs ih =>
    obtain ⟨k, _ | v⟩ := pair
    · exact ih
    · exact congrArg ((k, v) :: ·) ih

variable [DecidableEq κ]

/-- The position of the first pair under a key that has a value. -/
def arrival (k : κ) (pairs : List (κ × Option α)) : Nat :=
  pairs.findIdx fun pair => pair.1 = k ∧ pair.2.isSome

variable {k : κ} {pairs : List (κ × Option α)}

lemma arrival_lt_length_iff : arrival k pairs < pairs.length ↔ ∃ v, (k, some v) ∈ pairs := by
  rw [arrival, List.findIdx_lt_length]
  constructor
  · rintro ⟨⟨a, _ | v⟩, listed, found⟩
    · simp at found
    · obtain rfl : a = k := by simpa using found
      exact ⟨v, listed⟩
  · rintro ⟨v, listed⟩
    exact ⟨(k, some v), listed, by simp⟩

/-- A key that has a value already arrives where it did before. -/
lemma arrival_append (there : ∃ v, (k, some v) ∈ pairs) (rest : List (κ × Option α)) :
    arrival k (pairs ++ rest) = arrival k pairs := by
  have found := arrival_lt_length_iff.2 there
  unfold arrival at found ⊢
  rw [List.findIdx_append, if_pos found]

/-- A key without a value arrives behind all pairs. -/
lemma length_le_arrival_append (absent : ¬ ∃ v, (k, some v) ∈ pairs)
    (rest : List (κ × Option α)) : pairs.length ≤ arrival k (pairs ++ rest) := by
  have missing : ¬ arrival k pairs < pairs.length := fun found =>
    absent (arrival_lt_length_iff.1 found)
  unfold arrival at missing ⊢
  rw [List.findIdx_append, if_neg missing]
  exact Nat.le_add_left _ _

omit [DecidableEq κ] in
/-- There is one last value under a key. -/
lemma eq_of_last {before before' after after' : List (κ × Option α)} {v w : α}
    (same : before ++ (k, some v) :: after = before' ++ (k, some w) :: after')
    (last : ∀ u, (k, some u) ∉ after) (last' : ∀ u, (k, some u) ∉ after') : v = w := by
  rcases List.append_eq_append_iff.1 same with ⟨more, -, rest_eq⟩ | ⟨more, -, rest_eq⟩
  · cases more with
    | nil =>
      cases rest_eq
      rfl
    | cons pair more =>
      obtain ⟨-, rfl⟩ := List.cons.inj rest_eq
      exact absurd (by simp) (last w)
  · cases more with
    | nil =>
      cases rest_eq
      rfl
    | cons pair more =>
      obtain ⟨-, rfl⟩ := List.cons.inj rest_eq
      exact absurd (by simp) (last' v)

end Pairs

namespace OrderedMap

variable {κ α : Type} [DecidableEq κ] {m n : OrderedMap κ α} {pairs : List (κ × Option α)}

/-! ## Keys and values make up a map -/

/-- Entries that have the keys and the values of a map are its entries. -/
lemma entries_eq_of_keys_eq {es : List (κ × α)} (keys_eq : m.keys = es.map Prod.fst)
    (values : ∀ e ∈ es, m.get? e.1 = some e.2) : m.entries = es := by
  have looked_up (fs : List (κ × α)) (values : ∀ e ∈ fs, m.get? e.1 = some e.2) :
      (fs.map Prod.fst).map (fun k => (k, m.get? k)) = asPairs fs := by
    rw [List.map_map]
    refine List.map_congr_left fun e listed => ?_
    rw [Function.comp_apply, values e listed]
  calc m.entries
      = present ((m.entries.map Prod.fst).map fun k => (k, m.get? k)) := by
        rw [looked_up m.entries fun e => get?_of_mem, present_asPairs]
    _ = present ((es.map Prod.fst).map fun k => (k, m.get? k)) := by rw [← keys_eq, keys]
    _ = es := by rw [looked_up es values, present_asPairs]

/-- Maps with the same keys in the same order and the same values are the same. -/
lemma eq_of_keys_eq (keys_eq : m.keys = n.keys) (values_eq : ∀ k, m.get? k = n.get? k) : m = n :=
  ext <| entries_eq_of_keys_eq keys_eq fun e listed => (values_eq e.1).trans (get?_of_mem listed)

lemma exists_get?_eq_some_iff {k : κ} : (∃ v, m.get? k = some v) ↔ k ∈ m.keys := by
  rw [← Option.ne_none_iff_exists', get?, ne_eq, valueUnder?_eq_none_iff, not_not, keys]

/-! ## One more pair -/

/-- The map collects the pairs: the keys with a value are listed in the order of their first
values, and every key has its last value. -/
structure Collects (m : OrderedMap κ α) (pairs : List (κ × Option α)) : Prop where
  listed : ∀ k, k ∈ m.keys ↔ ∃ v, (k, some v) ∈ pairs
  ordered : m.keys.Pairwise fun k l => arrival k pairs < arrival l pairs
  last : ∀ k v, m.get? k = some v →
    ∃ before after, pairs = before ++ (k, some v) :: after ∧ ∀ w, (k, some w) ∉ after

lemma collects_empty : (empty : OrderedMap κ α).Collects [] where
  listed k := by simp [empty, keys]
  ordered := List.Pairwise.nil
  last := nofun

/-- Keys that are there keep their order, whatever comes behind them. -/
lemma Collects.ordered_append (h : m.Collects pairs) (rest : List (κ × Option α)) :
    m.keys.Pairwise fun k l => arrival k (pairs ++ rest) < arrival l (pairs ++ rest) := by
  refine h.ordered.imp_of_mem fun {k l} hk hl before => ?_
  rwa [arrival_append ((h.listed k).1 hk), arrival_append ((h.listed l).1 hl)]

/-- A pair without a value changes nothing. -/
lemma Collects.absent (h : m.Collects pairs) (k : κ) : m.Collects (pairs ++ [(k, none)]) where
  listed a := by simp [h.listed a]
  ordered := h.ordered_append _
  last a v found := by
    obtain ⟨before, after, rfl, later⟩ := h.last a v found
    exact ⟨before, after ++ [(k, none)], by simp, by simpa using later⟩

/-- A pair with a value is written. -/
lemma Collects.insert (h : m.Collects pairs) (k : κ) (v : α) :
    (m.insert k v).Collects (pairs ++ [(k, some v)]) where
  listed a := by
    have written : a ∈ (m.insert k v).keys ↔ a = k ∨ a ∈ m.keys := mem_keys_putEntry ..
    rw [written, h.listed a]
    by_cases same : a = k
    · simp [same]
    · simp [same]
  ordered := by
    rw [keys_insert]
    split
    · exact h.ordered_append _
    · next new =>
      -- a key that is new arrives behind all pairs, and those that are there within them
      rw [h.listed] at new
      refine List.pairwise_append.2 ⟨h.ordered_append _, List.pairwise_singleton _ _, ?_⟩
      intro a there b last
      obtain rfl : b = k := List.mem_singleton.1 last
      have earlier := (h.listed a).1 there
      calc arrival a (pairs ++ [(b, some v)])
          = arrival a pairs := arrival_append earlier _
        _ < pairs.length := arrival_lt_length_iff.2 earlier
        _ ≤ arrival b (pairs ++ [(b, some v)]) := length_le_arrival_append new _
  last a w found := by
    rw [get?_insert] at found
    split at found
    · next same =>
      obtain rfl := same
      obtain rfl := Option.some.inj found
      exact ⟨pairs, [], rfl, by simp⟩
    · next other =>
      obtain ⟨before, after, rfl, later⟩ := h.last a w found
      exact ⟨before, after ++ [(k, some v)], by simp, by simp [later, Ne.symm other]⟩

/-! ## A series of pairs -/

theorem Collects.insertAll (h : m.Collects pairs) (rest : List (κ × Option α)) :
    (m.insertAll (present rest)).Collects (pairs ++ rest) := by
  -- one pair after the other moves to those that are collected
  induction rest generalizing m pairs with
  | nil => simpa [present] using h
  | cons pair rest ih =>
    obtain ⟨k, _ | v⟩ := pair
    · have collected := ih (h.absent k)
      rwa [List.append_assoc] at collected
    · have collected := ih (h.insert k v)
      rwa [List.append_assoc] at collected

lemma collects_ofPresent (pairs : List (κ × Option α)) : (ofPresent pairs).Collects pairs :=
  collects_empty.insertAll pairs

lemma collects_merge (declared : List (κ × Option α)) (extra : List (κ × α)) :
    (merge declared extra).Collects (declared ++ asPairs extra) := by
  have collected := (collects_ofPresent declared).insertAll (asPairs extra)
  rwa [present_asPairs] at collected

/-- There is no other map that collects the same pairs. -/
theorem Collects.eq (hm : m.Collects pairs) (hn : n.Collects pairs) : m = n := by
  have keys_eq : m.keys = n.keys := by
    have same_keys (k : κ) : k ∈ m.keys ↔ k ∈ n.keys := (hm.listed k).trans (hn.listed k).symm
    have perm : m.keys.Perm n.keys :=
      (List.perm_ext_iff_of_nodup m.distinct n.distinct).2 same_keys
    -- no two keys arrive before each other, so there is one order for them
    refine List.Perm.eq_of_pairwise (fun k l _ _ before after => ?_) hm.ordered hn.ordered perm
    omega
  refine eq_of_keys_eq keys_eq fun k => ?_
  by_cases there : k ∈ m.keys
  · obtain ⟨v, found⟩ := exists_get?_eq_some_iff.2 there
    obtain ⟨w, found'⟩ := exists_get?_eq_some_iff.2 (keys_eq ▸ there)
    obtain ⟨before, after, split, last⟩ := hm.last k v found
    obtain ⟨before', after', split', last'⟩ := hn.last k w found'
    rw [found, found', eq_of_last (split.symm.trans split') last last']
  · have missing := valueUnder?_eq_none_iff.2 there
    have missing' := valueUnder?_eq_none_iff.2 (keys_eq ▸ there)
    exact missing.trans missing'.symm

/-! ## Merging -/

/-- Entries can be written behind the pairs or as pairs themselves. -/
lemma ofPresent_append_asPairs (declared : List (κ × Option α)) (es : List (κ × α)) :
    ofPresent (declared ++ asPairs es) = (ofPresent declared).insertAll es := by
  rw [ofPresent, present_append, present_asPairs, ofList, insertAll_append]
  rfl

/-- Declared values stand in their places, each replaced by the extra entry of its key if there is
one, and the other extra entries stand behind them. -/
theorem entries_merge {declared : List (κ × Option α)} {extra : List (κ × α)}
    (declared_distinct : (declared.map Prod.fst).Nodup)
    (extra_distinct : (extra.map Prod.fst).Nodup) :
    (merge declared extra).entries
      = (present declared).map (fun e => (e.1, (valueUnder? e.1 extra).getD e.2))
        ++ extra.filter (·.1 ∉ (present declared).map Prod.fst) := by
  have present_distinct : ((present declared).map Prod.fst).Nodup :=
    declared_distinct.sublist (keys_present_sublist declared)
  refine entries_eq_of_keys_eq ?_ fun e listed => ?_
  · rw [keys_merge declared_distinct extra_distinct, List.map_append, List.map_map,
      List.filter_map]
    rfl
  · rw [get?_merge declared_distinct extra_distinct, ← valueUnder?_present _ declared_distinct]
    rcases List.mem_append.1 listed with in_place | other
    · obtain ⟨⟨k, v⟩, has_value, rfl⟩ := List.mem_map.1 in_place
      rw [(valueUnder?_eq_some_iff present_distinct).2 has_value]
      cases valueUnder? k extra <;> rfl
    · have given := (valueUnder?_eq_some_iff extra_distinct).2 (List.mem_of_mem_filter other)
      rw [given]
      rfl

/-- Two lists of pairs in which the same values stand in the same order are collected alike. -/
lemma ofPresent_congr {declared declared' : List (κ × Option α)}
    (same : declared.filter (·.2.isSome) = declared'.filter (·.2.isSome)) :
    ofPresent declared = ofPresent declared' := by
  rw [ofPresent, ofPresent, ← present_filter_isSome declared, same, present_filter_isSome]

end OrderedMap

/-! ## Records -/

open Node (entriesOf)
open OrderedMap (ofPresent ofPresent_append_asPairs)

/-- The record of a job is collected from one list of pairs. -/
lemma Job.record_eq_ofPresent (j : Job) :
    j.record = .record (ofPresent (j.typedEntries ++ asPairs (entriesOf j.extra)
      ++ [("steps", some (.sequence (j.steps.map Step.record)))])) := by
  have last : [("steps", some (.sequence (j.steps.map Step.record)))]
      = asPairs [("steps", Node.sequence (j.steps.map Step.record))] := rfl
  rw [last, ofPresent_append_asPairs, ofPresent_append_asPairs]
  rfl

/-- The record of a trigger, except for a schedule, is the map of the pairs that carry a value. -/
lemma Trigger.record_eq_ofPresent {t : Trigger} (unscheduled : t.event ≠ .schedule) :
    t.record = .record (ofPresent (t.typedEntries ++ asPairs (entriesOf t.extra))) := by
  rw [ofPresent_append_asPairs]
  cases t with
  | schedule => exact absurd rfl unscheduled
  | _ => rfl

namespace OrderedMap

/-- **Merging collects, and the last value wins.** A merged map is the one map that collects the
declared pairs and behind them the extra entries. It is the same if the entries are written as pairs
and if pairs without a value are put in or left out. So the records of jobs, which are collected
from one list, and those of triggers, which are merged, are made alike. -/
theorem eq_merge_iff_collects :
    (∀ {κ α : Type} [DecidableEq κ] (declared : List (κ × Option α)) (extra : List (κ × α)),
      (∀ m, m = merge declared extra ↔ m.Collects (declared ++ asPairs extra)) ∧
      merge declared extra = ofPresent (declared ++ asPairs extra) ∧
      ∀ declared', declared'.filter (·.2.isSome) = declared.filter (·.2.isSome) →
        merge declared' extra = merge declared extra) ∧
    (∀ j : Job, j.record = .record (ofPresent (j.typedEntries ++ asPairs (entriesOf j.extra)
      ++ [("steps", some (.sequence (j.steps.map Step.record)))]))) ∧
    ∀ t : Trigger, t.event ≠ .schedule →
      t.record = .record (merge t.typedEntries (entriesOf t.extra)) ∧
      t.record = .record (ofPresent (t.typedEntries ++ asPairs (entriesOf t.extra))) := by
  refine ⟨fun declared extra => ⟨fun m => ⟨?_, fun collects => ?_⟩, ?_, fun declared' same => ?_⟩,
    Job.record_eq_ofPresent, fun t unscheduled => ⟨?_, Trigger.record_eq_ofPresent unscheduled⟩⟩
  · rintro rfl
    exact collects_merge declared extra
  · exact collects.eq (collects_merge declared extra)
  · exact (ofPresent_append_asPairs declared extra).symm
  · rw [merge, merge, ofPresent_congr same]
  · rw [Trigger.record_eq_ofPresent unscheduled, ofPresent_append_asPairs]
    rfl

/-- Arguments with a repeated key, an absent value in front of a free one, and a free value for a
declared key. The absent pairs could be left out. The filters of a trigger are merged in the same
way. -/
theorem upload_merged :
    let declared := [("name", some "a"), ("path", none), ("size", some "5"), ("name", none),
      ("name", some "b")]
    let fewer := [("name", some "a"), ("size", some "5"), ("name", some "b")]
    let extra := [("path", "out"), ("size", "6"), ("path", "dist")]
    let trigger := Trigger.push { branches := ["main"], extra := .ofList [("branches", "dev")] }
    fewer.filter (·.2.isSome) = declared.filter (·.2.isSome) ∧
      merge fewer extra = merge declared extra ∧
      (merge declared extra).entries = [("name", "b"), ("size", "6"), ("path", "dist")] ∧
      trigger.event ≠ .schedule ∧
      trigger.record = .record (ofPresent
        (trigger.typedEntries ++ asPairs [("branches", .string "dev")])) := by
  intro declared fewer extra trigger
  have same : fewer.filter (·.2.isSome) = declared.filter (·.2.isSome) := by decide
  have unscheduled : trigger.event ≠ .schedule := by decide
  obtain ⟨merged, -, triggers⟩ := eq_merge_iff_collects
  exact ⟨same, (merged declared extra).2.2 fewer same, by decide, unscheduled,
    (triggers trigger unscheduled).2⟩

/-! ## Free entries that are built up first -/

/-- A way to build up a map of free entries. -/
inductive Assembly (κ α : Type) where
  /-- Nothing is written. -/
  | empty
  /-- The entries of a list are written. -/
  | ofList (es : List (κ × α))
  /-- One more entry is written, to the map itself or to a copy of it. -/
  | insert (first : Assembly κ α) (k : κ) (v : α)

variable {κ α : Type}

/-- All that is written, entry by entry. -/
def Assembly.writes : Assembly κ α → List (κ × α)
  | empty => []
  | ofList es => es
  | insert first k v => first.writes ++ [(k, v)]

variable [DecidableEq κ]

/-- The map that is built up. -/
def Assembly.result : Assembly κ α → OrderedMap κ α
  | empty => ∅
  | ofList es => .ofList es
  | insert first k v => first.result.insert k v

lemma ofList_concat (es : List (κ × α)) (e : κ × α) :
    ofList (es ++ [e]) = (ofList es).insert e.1 e.2 := by
  rw [ofList, insertAll_append]
  rfl

/-- Whichever way a map is built up, what is written counts. -/
lemma Assembly.result_eq_ofList (a : Assembly κ α) : a.result = OrderedMap.ofList a.writes := by
  induction a with
  | empty => rfl
  | ofList es => rfl
  | insert first k v ih => rw [result, writes, ofList_concat, ih]

/-- The entries of a map win over those that were there. -/
lemma get?_insertAll_entries (m n : OrderedMap κ α) (k : κ) :
    (m.insertAll n.entries).get? k = (n.get? k).or (m.get? k) := by
  rw [get?_insertAll, valueUnder?_reverse k n.distinct]
  rfl

/-- An entry can as well be written behind the entries of a map as in it. -/
lemma insertAll_entries_insert (m n : OrderedMap κ α) (k : κ) (v : α) :
    m.insertAll (n.insert k v).entries = (m.insertAll n.entries).insert k v := by
  by_cases there : k ∈ n.keys
  · -- the key stands where it stood, in both maps
    have keys_eq : (n.insert k v).keys = n.keys := by rw [keys_insert, if_pos there]
    have written : k ∈ (m.insertAll n.entries).keys := by
      rw [keys_insertAll, List.mem_eraseDups]
      exact List.mem_append_right _ there
    refine eq_of_keys_eq ?_ fun a => ?_
    · calc (m.insertAll (n.insert k v).entries).keys
          = (m.keys ++ (n.insert k v).keys).eraseDups := keys_insertAll ..
        _ = (m.keys ++ n.keys).eraseDups := by rw [keys_eq]
        _ = (m.insertAll n.entries).keys := (keys_insertAll ..).symm
        _ = ((m.insertAll n.entries).insert k v).keys := by rw [keys_insert, if_pos written]
    · rw [get?_insertAll_entries, get?_insert, get?_insert, get?_insertAll_entries]
      split
      · rfl
      · rfl
  · have entries_eq : (n.insert k v).entries = n.entries ++ [(k, v)] := putEntry_of_notMem there
    rw [entries_eq, insertAll_append]
    rfl

/-- Entries can as well be collected in a map before they are written. -/
theorem insertAll_entries_ofList (m : OrderedMap κ α) (es : List (κ × α)) :
    m.insertAll (ofList es).entries = m.insertAll es := by
  induction es using List.reverseRecOn with
  | nil => rfl
  | append_singleton es e ih =>
    rw [ofList_concat, insertAll_entries_insert, ih, insertAll_append]
    rfl

/-- A map written to nothing is the map itself. -/
lemma merge_nil_entries (m : OrderedMap κ α) : merge [] m.entries = m :=
  ext (entries_ofList_of_nodup m.entries m.distinct)

section Values

variable {β : Type}

/-- A value can as well be replaced before it is written. -/
lemma map_insert (f : α → β) (m : OrderedMap κ α) (k : κ) (v : α) :
    (m.insert k v).map f = (m.map f).insert k (f v) := by
  apply ext
  show (putEntry k v m.entries).map (fun e => (e.1, f e.2))
    = putEntry k (f v) (m.entries.map fun e => (e.1, f e.2))
  induction m.entries with
  | nil => rfl
  | cons e es ih =>
    by_cases same : e.1 = k
    · simp [putEntry, same]
    · rw [putEntry, if_neg same, List.map_cons, ih, List.map_cons, putEntry, if_neg same]

lemma map_ofList (f : α → β) (es : List (κ × α)) :
    (ofList es).map f = ofList (es.map fun e => (e.1, f e.2)) := by
  induction es using List.reverseRecOn with
  | nil => rfl
  | append_singleton es e ih =>
    rw [ofList_concat, map_insert, ih, List.map_append, List.map_singleton, ofList_concat]

end Values

/-- **Free entries can be built up first.** It makes no difference whether they are merged from the
map that they were written to, whichever way, or one by one as they were written; this holds of
plain values and of the nodes in a record. What is merged stays the same when it is merged with
nothing. -/
theorem merge_entries_result :
    (∀ {κ α : Type} [DecidableEq κ] (declared : List (κ × Option α)) (a : Assembly κ α),
      merge declared a.result.entries = merge declared a.writes ∧
      merge [] (merge declared a.writes).entries = merge declared a.writes) ∧
    ∀ (declared : List (String × Option Node)) (a : Assembly String String),
      merge declared (entriesOf a.result)
        = merge declared (a.writes.map fun e => (e.1, .string e.2)) := by
  refine ⟨fun declared a => ⟨?_, merge_nil_entries _⟩, fun declared a => ?_⟩
  · rw [merge, a.result_eq_ofList, insertAll_entries_ofList]
    rfl
  · rw [merge, a.result_eq_ofList, entriesOf, map_ofList, insertAll_entries_ofList]
    rfl

/-- A free value that was overwritten before it is merged still says where its key stands. -/
example : (merge [("a", none), ("b", some 1)]
    (Assembly.ofList [("c", 2), ("b", 3), ("c", 4)] |>.insert "a" 5).result.entries).entries
      = [("b", 3), ("c", 4), ("a", 5)] := by decide

end OrderedMap

end WorkflowFile
