import Mathlib.Data.Option.Basic
import WorkflowFile.Proofs.OrderedMap
import WorkflowFile.Workflow.Document

/-!
# What a record holds

Every record is written in the same way: the declared keys that are set, then the free keys,
and for jobs and workflows one more key that nothing overrides. So there is one rule for the
value under a key (`Step.get?_record`, `Job.get?_record`, `Workflow.get?_document`):

* a free key wins over a declared one of its name;
* `steps` and `jobs` hold the steps and the jobs, whatever the free keys are.

If no free key has the name of a typed one (`Node.Apart`), a record can be taken apart again:
`Node.record_merge_inj` and `Node.record_insert_inj`.
-/

namespace WorkflowFile

/-! ## Mappings of ordered maps -/

namespace Node

@[simp] lemma get?_record (m : OrderedMap String Node) (k : String) :
    (record m).get? k = m.get? k := rfl

@[simp] lemma keys_entriesOf (m : Arguments) : (entriesOf m).map Prod.fst = m.keys := by
  simp [entriesOf, OrderedMap.map, OrderedMap.keys, Function.comp_def]

lemma nodup_keys_entriesOf (m : Arguments) : ((entriesOf m).map Prod.fst).Nodup :=
  keys_entriesOf m ▸ m.distinct

@[simp] lemma valueUnder?_entriesOf (m : Arguments) (k : String) :
    valueUnder? k (entriesOf m) = (m.get? k).map .string :=
  valueUnder?_map Node.string k m.entries

/-- The value under a key of a record that is merged from declared keys and free ones. -/
lemma get?_merge_entriesOf {declared : List (String × Option Node)}
    (distinct : (declared.map Prod.fst).Nodup) (m : Arguments) (k : String) :
    (OrderedMap.merge declared (entriesOf m)).get? k
      = ((m.get? k).map .string).or (valueUnder? k declared).join := by
  rw [OrderedMap.get?_merge distinct (nodup_keys_entriesOf m), valueUnder?_entriesOf]

/-- A chain of selectors goes on from where a beginning of it leads. -/
lemma at?_append {node found : Node} {first : List Selector} (rest : List Selector)
    (h : node.at? first = some found) : node.at? (first ++ rest) = found.at? rest := by
  induction first generalizing node with
  | nil =>
    cases h
    rfl
  | cons selector first ih =>
    cases selector with
    | key | position =>
      obtain ⟨inner, selected, h⟩ := Option.bind_eq_some_iff.1 h
      rw [List.cons_append, at?, selected]
      exact ih h

/-! ## Values taken apart -/

lemma texts_injective : texts.Injective := by
  intro as bs h
  exact List.map_injective_iff.2 (fun _ _ => string.inj) (sequence.inj h)

@[simp] lemma texts_inj {as bs : List String} : texts as = texts bs ↔ as = bs :=
  texts_injective.eq_iff

@[simp] lemma texts_ne_string (as : List String) (text : String) : texts as ≠ string text := by
  simp [texts]

@[simp] lemma string_ne_texts (as : List String) (text : String) : string text ≠ texts as :=
  (texts_ne_string as text).symm

lemma entriesOf_injective : entriesOf.Injective := by
  intro m n h
  exact OrderedMap.map_injective (fun _ _ => string.inj) (OrderedMap.ext h)

lemma record_injective : record.Injective := by
  intro m n h
  exact OrderedMap.ext (mapping.inj h)

@[simp] lemma map_string_inj {a b : Option String} : a.map string = b.map string ↔ a = b :=
  (Option.map_injective fun _ _ => string.inj).eq_iff

@[simp] lemma map_bool_inj {a b : Option Bool} : a.map bool = b.map bool ↔ a = b :=
  (Option.map_injective fun _ _ => bool.inj).eq_iff

@[simp] lemma map_minutes_inj {a b : Option Nat} :
    a.map (fun minutes : Nat => integer minutes) = b.map (fun minutes : Nat => integer minutes) ↔
      a = b :=
  (Option.map_injective fun _ _ h => Int.ofNat.inj (integer.inj h)).eq_iff

@[simp] lemma texts?_inj {as bs : List String} : texts? as = texts? bs ↔ as = bs :=
  ((Option.map_injective texts_injective).comp nonEmptyList?_injective).eq_iff

@[simp] lemma arguments?_inj {m n : Arguments} : arguments? m = arguments? n ↔ m = n := by
  have injective : arguments.Injective := fun _ _ h => entriesOf_injective (mapping.inj h)
  exact ((Option.map_injective injective).comp OrderedMap.nonEmpty?_injective).eq_iff

/-! ## Records taken apart -/

/-- No free key has the name of a typed one. -/
def Apart (declared : List (String × Option Node)) (extra : Arguments) : Prop :=
  ∀ k ∈ extra.keys, k ∉ declared.map Prod.fst

instance (declared : List (String × Option Node)) (extra : Arguments) :
    Decidable (Apart declared extra) :=
  inferInstanceAs (Decidable (∀ k ∈ extra.keys, k ∉ declared.map Prod.fst))

section Merge

variable {declared declared' : List (String × Option Node)} {extra extra' : Arguments}

lemma entries_merge (distinct : (declared.map Prod.fst).Nodup) (apart : Apart declared extra) :
    (OrderedMap.merge declared (entriesOf extra)).entries
      = present declared ++ entriesOf extra := by
  refine OrderedMap.entries_merge_of_nodup distinct (nodup_keys_entriesOf extra) ?_
  rw [keys_entriesOf]
  exact apart

/-- A record with the same typed keys can be taken apart. -/
theorem record_merge_inj (same_keys : declared.map Prod.fst = declared'.map Prod.fst)
    (distinct : (declared.map Prod.fst).Nodup) (apart : Apart declared extra)
    (apart' : Apart declared' extra')
    (h : record (.merge declared (entriesOf extra))
      = record (.merge declared' (entriesOf extra'))) :
    declared = declared' ∧ extra = extra' := by
  have entries_eq := congrArg OrderedMap.entries (record_injective h)
  rw [entries_merge distinct apart, entries_merge (same_keys ▸ distinct) apart'] at entries_eq
  obtain ⟨declared_eq, extra_eq⟩ := present_append_inj same_keys distinct
    (keys_entriesOf extra ▸ apart) (keys_entriesOf extra' ▸ apart') entries_eq
  exact ⟨declared_eq, entriesOf_injective extra_eq⟩

/-- A record with one more key at the end determines its declared values, its free keys and the
value under that key. -/
theorem record_insert_inj {k : String} {v v' : Node}
    (same_keys : declared.map Prod.fst = declared'.map Prod.fst)
    (distinct : (declared.map Prod.fst).Nodup) (undeclared : k ∉ declared.map Prod.fst)
    (apart : Apart declared extra) (absent : k ∉ extra.keys)
    (apart' : Apart declared' extra') (absent' : k ∉ extra'.keys)
    (h : record ((OrderedMap.merge declared (entriesOf extra)).insert k v)
      = record ((OrderedMap.merge declared' (entriesOf extra')).insert k v')) :
    declared = declared' ∧ extra = extra' ∧ v = v' := by
  -- the last key is new, so it stands behind the others
  have last (d : List (String × Option Node)) (e : Arguments) (x : Node)
      (distinct : (d.map Prod.fst).Nodup) (apart : Apart d e) (undeclared : k ∉ d.map Prod.fst)
      (absent : k ∉ e.keys) :
      ((OrderedMap.merge d (entriesOf e)).insert k x).entries
        = present d ++ (entriesOf e ++ [(k, x)]) := by
    show putEntry k x _ = _
    rw [entries_merge distinct apart, putEntry_of_notMem, List.append_assoc]
    rw [List.map_append, keys_entriesOf, List.mem_append, not_or]
    exact ⟨fun hk => undeclared ((keys_present_sublist d).subset hk), absent⟩
  have apart_last (d : List (String × Option Node)) (e : Arguments) (x : Node)
      (apart : Apart d e) (undeclared : k ∉ d.map Prod.fst) :
      ∀ a ∈ (entriesOf e ++ [(k, x)]).map Prod.fst, a ∉ d.map Prod.fst := by
    intro a ha
    rw [List.map_append, keys_entriesOf, List.mem_append, List.map_singleton,
      List.mem_singleton] at ha
    rcases ha with ha | rfl
    · exact apart a ha
    · exact undeclared
  have undeclared' : k ∉ declared'.map Prod.fst := same_keys ▸ undeclared
  have entries_eq := congrArg OrderedMap.entries (record_injective h)
  rw [last _ _ _ distinct apart undeclared absent,
    last _ _ _ (same_keys ▸ distinct) apart' undeclared' absent'] at entries_eq
  obtain ⟨declared_eq, rest_eq⟩ := present_append_inj same_keys distinct
    (apart_last _ _ _ apart undeclared) (apart_last _ _ _ apart' undeclared') entries_eq
  obtain ⟨extra_eq, last_eq⟩ := List.append_inj' rest_eq rfl
  refine ⟨declared_eq, entriesOf_injective extra_eq, ?_⟩
  simpa using last_eq

end Merge

end Node

/-! ## Steps -/

lemma Step.nodup_keys_typedEntries (s : Step) : (s.typedEntries.map Prod.fst).Nodup := by
  cases h : s.task <;> simp [typedEntries, taskEntries, h]

/-- The value under a key of the record of a step. -/
theorem Step.get?_record (s : Step) (k : String) :
    s.record.get? k = ((s.extra.get? k).map .string).or (valueUnder? k s.typedEntries).join :=
  Node.get?_merge_entriesOf s.nodup_keys_typedEntries s.extra k

/-! ## Triggers -/

lemma Event.key_injective : Event.key.Injective := by
  intro a b h
  cases a <;> cases b <;> first | rfl | exact absurd h (by decide)

/-- Triggers with distinct events are listed one by one. -/
lemma Trigger.table_eq {triggers : List Trigger} (distinct : (triggers.map event).Nodup) :
    table triggers = .mapping (triggers.map fun t => (t.event.key, t.record)) := by
  rw [table, Node.record, OrderedMap.entries_ofList_of_nodup]
  have keys_distinct := distinct.map Event.key_injective
  rwa [List.map_map] at keys_distinct ⊢

/-! ## Jobs -/

namespace Job

lemma nodup_keys_typedEntries (j : Job) : (j.typedEntries.map Prod.fst).Nodup := by
  simp [typedEntries]

/-- The value under a key of the record of a job. -/
theorem get?_record (j : Job) (k : String) :
    j.record.get? k
      = if "steps" = k then some (.sequence (j.steps.map Step.record))
        else ((j.extra.get? k).map .string).or (valueUnder? k j.typedEntries).join := by
  rw [record, Node.get?_record, OrderedMap.get?_insert,
    Node.get?_merge_entriesOf j.nodup_keys_typedEntries]

/-- Jobs with distinct ids are listed one by one. -/
lemma table_eq {jobs : List Job} (distinct : (jobs.map Job.id).Nodup) :
    table jobs = .mapping (jobs.map fun j => (j.id, j.record)) := by
  rw [table, Node.record, OrderedMap.entries_ofList_of_nodup]
  simpa [Function.comp_def] using distinct

end Job

/-! ## Workflows -/

namespace Workflow

lemma nodup_keys_typedEntries (w : Workflow) : (w.typedEntries.map Prod.fst).Nodup := by
  simp [typedEntries]

/-- The value under a key of the document of a workflow. -/
theorem get?_document (w : Workflow) (k : String) :
    w.document.get? k
      = if "jobs" = k then some (Job.table w.jobs)
        else ((w.extra.get? k).map .string).or (valueUnder? k w.typedEntries).join := by
  rw [document, Node.get?_record, OrderedMap.get?_insert,
    Node.get?_merge_entriesOf w.nodup_keys_typedEntries]

end Workflow

end WorkflowFile
