import Mathlib.Data.List.Nodup
import Mathlib.Data.String.Basic
import WorkflowFile.Proofs.Comparison

/-!
# Documents whose order does not count

A reader of a workflow file does not mind in which order the keys of a mapping and the needs of a
job are listed. Sorting them shows whether two documents say the same to such a reader.

* `sortBy` sorts a list by texts, and `sortBy_eq_of_perm` says when the order it starts from does
  not show.
* `Node.sorted` sorts the entries of all mappings of a tree, and `Node.unordered` also the needs of
  the jobs of a document.
* `Node.sorted_record_congr`: a sorted record is known by the sorted values under its keys.
* `Node.sorted_merge_congr` and `Node.sorted_modify_insert_congr`: records that are written from
  equal values are the same once they are sorted.
-/

namespace WorkflowFile

/-! ## Sorting by texts -/

/-- The list in the order of the texts of its members. -/
def sortBy {α : Type} (text : α → String) (as : List α) : List α :=
  as.mergeSort fun a b => decide (text a ≤ text b)

lemma pairwise_sortBy {α : Type} (text : α → String) (as : List α) :
    (sortBy text as).Pairwise fun a b => text a ≤ text b := by
  have sorted : (sortBy text as).Pairwise fun a b => decide (text a ≤ text b) = true := by
    apply List.pairwise_mergeSort
    · intro a b c hab hbc
      exact decide_eq_true (le_trans (of_decide_eq_true hab) (of_decide_eq_true hbc))
    · intro a b
      simpa using le_total (text a) (text b)
  exact sorted.imp of_decide_eq_true

/-- If the members can be told apart by their texts, it does not matter in which order they are
sorted. -/
lemma sortBy_eq_of_perm {α : Type} {text : α → String} {as bs : List α}
    (apart : ∀ a ∈ as, ∀ b ∈ as, text a = text b → a = b) (perm : as.Perm bs) :
    sortBy text as = sortBy text bs := by
  have perm_as : (sortBy text as).Perm as := List.mergeSort_perm ..
  have perm_bs : (sortBy text bs).Perm bs := List.mergeSort_perm ..
  refine List.Perm.eq_of_pairwise (fun a b ha hb hab hba => ?_) (pairwise_sortBy text as)
    (pairwise_sortBy text bs) (perm_as.trans (perm.trans perm_bs.symm))
  have listed : b ∈ as := perm.symm.subset (perm_bs.subset hb)
  exact apart a (perm_as.subset ha) b listed (le_antisymm hab hba)

/-- Where no key occurs twice, entries that give every key the same value are the same up to their
order. -/
lemma perm_of_valueUnder?_eq {α : Type} {es fs : List (String × α)}
    (distinct : (es.map Prod.fst).Nodup) (distinct' : (fs.map Prod.fst).Nodup)
    (same : ∀ k, valueUnder? k es = valueUnder? k fs) : es.Perm fs := by
  rw [List.perm_ext_iff_of_nodup (distinct.of_map _) (distinct'.of_map _)]
  intro e
  obtain ⟨k, v⟩ := e
  rw [← valueUnder?_eq_some_iff distinct, same, valueUnder?_eq_some_iff distinct']

/-! ## Sorted documents -/

namespace Node

mutual

/-- The tree with the entries of every mapping in the order of their keys. -/
def sorted : Node → Node
  | .string text => .string text
  | .bool value => .bool value
  | .integer value => .integer value
  | .sequence items => .sequence (sortedItems items)
  | .mapping entries => .mapping (sortBy Prod.fst (sortedEntries entries))

/-- The items, each of them sorted. -/
def sortedItems : List Node → List Node
  | [] => []
  | item :: items => item.sorted :: sortedItems items

/-- The entries with sorted values. -/
def sortedEntries : List (String × Node) → List (String × Node)
  | [] => []
  | (k, v) :: entries => (k, v.sorted) :: sortedEntries entries

end

/-- The items of a sequence in the order of their texts. -/
def sortedTexts : Node → Node
  | .sequence items => .sequence (sortBy (fun item => item.text?.getD "") items)
  | node => node

/-- The mapping in which every value is replaced by its image. -/
def eachValue (f : Node → Node) : Node → Node
  | .mapping entries => .mapping (entries.map fun e => (e.1, f e.2))
  | node => node

/-- The document with the entries of all mappings and the needs of all jobs sorted. -/
def unordered (document : Node) : Node :=
  (document.modify (eachValue (modify sortedTexts ["needs"])) ["jobs"]).sorted

lemma sortedItems_eq (items : List Node) : sortedItems items = items.map sorted := by
  induction items with
  | nil => rfl
  | cons item items ih => rw [sortedItems, ih, List.map_cons]

lemma sortedEntries_eq (entries : List (String × Node)) :
    sortedEntries entries = entries.map fun e => (e.1, e.2.sorted) := by
  induction entries with
  | nil => rfl
  | cons e entries ih => rw [sortedEntries, ih, List.map_cons]

/-- A sorted record is known by the sorted values under its keys. -/
theorem sorted_record_congr {m n : OrderedMap String Node}
    (same : ∀ k, (m.get? k).map sorted = (n.get? k).map sorted) :
    (record m).sorted = (record n).sorted := by
  have distinct (m : OrderedMap String Node) : ((sortedEntries m.entries).map Prod.fst).Nodup := by
    rw [sortedEntries_eq, List.map_map]
    exact m.distinct
  have perm : (sortedEntries m.entries).Perm (sortedEntries n.entries) := by
    refine perm_of_valueUnder?_eq (distinct m) (distinct n) fun k => ?_
    rw [sortedEntries_eq, sortedEntries_eq, valueUnder?_map, valueUnder?_map]
    exact same k
  have entries_eq : sortBy Prod.fst (sortedEntries m.entries)
      = sortBy Prod.fst (sortedEntries n.entries) :=
    sortBy_eq_of_perm (fun e he f hf => List.inj_on_of_nodup_map (distinct m) he hf) perm
  simp only [record, sorted, entries_eq]

/-- The same texts in another order are sorted alike. -/
lemma sortedTexts_texts {as bs : List String} (perm : as.Perm bs) :
    (texts as).sortedTexts = (texts bs).sortedTexts := by
  refine congrArg Node.sequence (sortBy_eq_of_perm (fun a ha b hb text_eq => ?_) (perm.map _))
  obtain ⟨s, -, rfl⟩ := List.mem_map.1 ha
  obtain ⟨t, -, rfl⟩ := List.mem_map.1 hb
  exact congrArg Node.string text_eq

/-! ## Records written from the same values -/

lemma valueUnder?_map_keyed (f : String → Node → Node) (k : String)
    (declared : List (String × Option Node)) :
    valueUnder? k (declared.map fun e => (e.1, e.2.map (f e.1)))
      = (valueUnder? k declared).map (Option.map (f k)) := by
  induction declared with
  | nil => rfl
  | cons e declared ih =>
    simp only [List.map_cons, valueUnder?]
    by_cases same : e.1 = k
    · rw [if_pos same, if_pos same, same]
      rfl
    · rw [if_neg same, if_neg same, ih]

section Merge

variable {declared declared' : List (String × Option Node)} {extra extra' : Arguments}

/-- Where declared and free keys have the same values, so have all keys of the record. -/
lemma map_get?_merge_congr (f : String → Node → Node) (distinct : (declared.map Prod.fst).Nodup)
    (typed : (declared.map fun e => (e.1, e.2.map (f e.1)))
      = declared'.map fun e => (e.1, e.2.map (f e.1)))
    (free : ∀ k, extra.get? k = extra'.get? k) (k : String) :
    ((OrderedMap.merge declared (entriesOf extra)).get? k).map (f k)
      = ((OrderedMap.merge declared' (entriesOf extra')).get? k).map (f k) := by
  have keys_eq : declared.map Prod.fst = declared'.map Prod.fst := by
    simpa [Function.comp_def] using congrArg (List.map Prod.fst) typed
  have under (d : List (String × Option Node)) : (valueUnder? k d).join.map (f k)
      = (valueUnder? k (d.map fun e => (e.1, e.2.map (f e.1)))).join := by
    rw [valueUnder?_map_keyed]
    cases valueUnder? k d <;> rfl
  rw [get?_merge_entriesOf distinct, get?_merge_entriesOf (keys_eq ▸ distinct), free,
    Option.map_or, Option.map_or, under, under, typed]

/-- Records whose typed values are sorted alike, and with the same values under free keys, are
sorted alike. -/
lemma sorted_merge_congr (distinct : (declared.map Prod.fst).Nodup)
    (typed : (declared.map fun e => (e.1, e.2.map sorted))
      = declared'.map fun e => (e.1, e.2.map sorted))
    (free : ∀ k, extra.get? k = extra'.get? k) :
    (record (.merge declared (entriesOf extra))).sorted
      = (record (.merge declared' (entriesOf extra'))).sorted :=
  sorted_record_congr (map_get?_merge_congr (fun _ => sorted) distinct typed free)

/-- What is sorted of the value under a key, where the value under one key is changed before. -/
def settled (g : Node → Node) (key : String) (k : String) (node : Node) : Node :=
  (if k = key then g node else node).sorted

lemma settled_of_ne {g : Node → Node} {key k : String} (other : k ≠ key) :
    settled g key k = sorted := by
  funext node
  rw [settled, if_neg other]

/-- Texts that are sorted first may come in any order. -/
lemma settled_texts? (key : String) {as bs : List String} (perm : as.Perm bs) :
    (texts? as).map (settled sortedTexts key key)
      = (texts? bs).map (settled sortedTexts key key) := by
  unfold texts? nonEmptyList?
  rw [perm.isEmpty_eq]
  split
  · rfl
  · simp only [Option.map_some, settled, if_pos, sortedTexts_texts perm]

/-- Records with one more key, and with the value under a key changed, are sorted alike if the
values under their keys are. -/
lemma sorted_modify_insert_congr (g : Node → Node) (key : String) {last : String} {v v' : Node}
    (distinct : (declared.map Prod.fst).Nodup)
    (typed : (declared.map fun e => (e.1, e.2.map (settled g key e.1)))
      = declared'.map fun e => (e.1, e.2.map (settled g key e.1)))
    (free : ∀ k, extra.get? k = extra'.get? k)
    (inserted : settled g key last v = settled g key last v') :
    ((record ((OrderedMap.merge declared (entriesOf extra)).insert last v)).modify g [key]).sorted
      = ((record ((OrderedMap.merge declared' (entriesOf extra')).insert last v')).modify g
          [key]).sorted := by
  have value (m : OrderedMap String Node) (k : String) :
      ((m.adjust key g).get? k).map sorted = (m.get? k).map (settled g key k) := by
    rw [OrderedMap.get?_adjust, Option.map_map]
    rfl
  refine sorted_record_congr (m := OrderedMap.adjust _ key g) (n := OrderedMap.adjust _ key g)
    fun k => ?_
  rw [value, value, OrderedMap.get?_insert, OrderedMap.get?_insert]
  by_cases at_last : last = k
  · rw [if_pos at_last, if_pos at_last, ← at_last, Option.map_some, Option.map_some, inserted]
  · rw [if_neg at_last, if_neg at_last]
    exact map_get?_merge_congr (settled g key) distinct typed free k

end Merge

/-- Tables of values that are sorted alike, one by one, are the same once they are sorted. -/
lemma sorted_map_ofList_congr (g : Node → Node) {es fs : List (String × Node)}
    (same : (es.map fun e => (e.1, (g e.2).sorted)) = fs.map fun e => (e.1, (g e.2).sorted)) :
    (record ((OrderedMap.ofList es).map g)).sorted
      = (record ((OrderedMap.ofList fs).map g)).sorted := by
  have value (es : List (String × Node)) (k : String) :
      (((OrderedMap.ofList es).map g).get? k).map sorted
        = valueUnder? k (es.map fun e => (e.1, (g e.2).sorted)).reverse := by
    rw [OrderedMap.get?_map, OrderedMap.get?_ofList, ← List.map_reverse,
      valueUnder?_map (fun n => (g n).sorted), Option.map_map]
    rfl
  exact sorted_record_congr fun k => by rw [value, value, same]

/-- Maps that agree are written as the same records once they are sorted, however their values are
written. -/
lemma sorted_map_of_agree {α : Type} [DecidableEq α] (f : α → Node) {m n : OrderedMap String α}
    (h : m.agree (· == ·) n = true) :
    ((m.map f).nonEmpty?.map record).map sorted = ((n.map f).nonEmpty?.map record).map sorted := by
  have empty : (m.map f).isEmpty = (n.map f).isEmpty :=
    ((OrderedMap.perm_of_agree h).map _).isEmpty_eq
  have same : (record (m.map f)).sorted = (record (n.map f)).sorted := by
    refine sorted_record_congr fun k => ?_
    rw [OrderedMap.get?_map, OrderedMap.get?_map, OrderedMap.get?_eq_of_agree h]
  unfold OrderedMap.nonEmpty?
  rw [empty]
  split
  · rfl
  · simp only [Option.map_some, same]

/-- Text arguments that agree are the same once they are sorted. -/
lemma sorted_arguments? {m n : Arguments} (h : m.agree (· == ·) n = true) :
    (arguments? m).map sorted = (arguments? n).map sorted := by
  have written (m : Arguments) : arguments? m = (m.map string).nonEmpty?.map record := by
    have empty : (m.map string).isEmpty = m.isEmpty := List.isEmpty_map
    unfold arguments? OrderedMap.nonEmpty?
    rw [empty]
    split <;> rfl
  rw [written, written, sorted_map_of_agree string h]

end Node

end WorkflowFile
