import WorkflowFile.Proofs.Merging
import WorkflowFile.Proofs.Yaml.Numeral

/-!
# The inputs of actions

A step that uses an action lists its inputs: the typed ones that are set in the order of their
declaration, and behind them the free ones, except that a free input with the name of a typed one
that is set replaces its value.

* `Action.listing` is that list for given inputs, and `Action.Lists` says that a step has it.
* `Action.lists_uses`: the step of an action lists the inputs of the action.
* `Checkout.SameInputs`: two checkouts have the same inputs, where no bound on the history counts as
  a depth of zero.
* `Checkout.sameInputs_iff`: typed inputs can be told from the text they are written as.
* `Action.InputsFaithful` names the inputs of each kind of action, and `Action.inputs_faithful` says
  that these are what a step lists, and what can be told from it.
-/

namespace WorkflowFile

/-! ## Listed inputs -/

namespace Action

/-- Inputs as they are listed: the typed ones that are set, each with the value of the free input of
its name if there is one, and behind them the other free ones. -/
def listing (typed : List (String × Option String)) (free : Arguments) : List (String × String) :=
  (present typed).map (fun input => (input.1, (free.get? input.1).getD input.2))
    ++ free.entries.filter (·.1 ∉ (present typed).map Prod.fst)

/-- The step lists the inputs if a typed one is set or there is a free one, and else nothing. -/
structure Lists (typed : List (String × Option String)) (free : Arguments) (step : Step) :
    Prop where
  lists_iff : (∃ inputs, step.record.get? "with" = some (.mapping inputs)) ↔
    (∃ input ∈ typed, input.2.isSome) ∨ free ≠ ∅
  listed : ∀ node, step.record.get? "with" = some node →
    node = .mapping ((listing typed free).map fun input => (input.1, .string input.2))

lemma nodup_keys_typedInputs (a : Action) : (a.typedInputs.map Prod.fst).Nodup := by
  cases a with
  | checkout | installNix => simp [typedInputs, Checkout.inputs, InstallNix.inputs]
  | _ => exact List.nodup_nil

/-- An action hands over its inputs as they are listed. -/
theorem entries_arguments (a : Action) :
    a.arguments.entries = listing a.typedInputs a.freeInputs :=
  OrderedMap.entries_merge a.nodup_keys_typedInputs a.freeInputs.distinct

/-- There are no inputs only if no typed one is set and there is no free one. -/
lemma arguments_ne_empty_iff (a : Action) :
    a.arguments ≠ ∅ ↔ (∃ input ∈ a.typedInputs, input.2.isSome) ∨ a.freeInputs ≠ ∅ := by
  rw [arguments, ne_eq, OrderedMap.merge_eq_empty_iff, ← OrderedMap.eq_empty_iff, not_and_or]
  simp [Option.isSome_iff_ne_none]

end Action

lemma Node.arguments?_eq_some_iff {m : Arguments} {node : Node} :
    arguments? m = some node ↔ m ≠ ∅ ∧ node = .mapping (entriesOf m) := by
  by_cases nothing : m = ∅
  · rw [arguments?, OrderedMap.nonEmpty?_eq_none_iff.2 nothing]
    simp [nothing]
  · have filled : m.isEmpty = false := by
      rw [OrderedMap.isEmpty, List.isEmpty_eq_false_iff]
      exact fun none => nothing (OrderedMap.eq_empty_iff.2 none)
    simp [arguments?, OrderedMap.nonEmpty?, filled, nothing, arguments, eq_comm]

/-- A step lists the arguments of the action that it uses, if there are any. -/
lemma Step.get?_with_uses {a : Action} {node : Node} :
    (uses a).record.get? "with" = some node ↔
      a.arguments ≠ ∅ ∧ node = .mapping
        ((Action.listing a.typedInputs a.freeInputs).map fun input =>
          (input.1, .string input.2)) := by
  have record_eq : (uses a).record.get? "with" = Node.arguments? a.arguments := by
    rw [get?_record]
    rfl
  rw [record_eq, Node.arguments?_eq_some_iff, ← a.entries_arguments]
  rfl

/-- The step of an action lists the inputs of the action. -/
lemma Action.lists_uses (a : Action) : Lists a.typedInputs a.freeInputs (.uses a) where
  lists_iff := by
    simp only [Step.get?_with_uses, ← a.arguments_ne_empty_iff]
    constructor
    · rintro ⟨inputs, some_input, -⟩
      exact some_input
    · exact fun some_input => ⟨_, some_input, rfl⟩
  listed node found := (Step.get?_with_uses.1 found).2

/-! ## Inputs of a checkout -/

/-- A depth as a number, where zero stands for all history. -/
def FetchDepth.count : FetchDepth → Nat
  | unlimited => 0
  | commits count => count

lemma FetchDepth.text_eq_text_iff {d e : FetchDepth} : d.text = e.text ↔ d.count = e.count := by
  have text_eq (d : FetchDepth) : d.text = toString (d.count : Int) := by cases d <;> rfl
  rw [text_eq, text_eq]
  constructor
  · intro same
    exact Int.ofNat.inj (Yaml.toString_injective (congrArg String.toList same))
  · intro same
    rw [same]

lemma flagText_injective : flagText.Injective := by
  show ∀ a b, flagText a = flagText b → a = b
  decide

namespace Checkout

/-- The names of the typed inputs. -/
def inputNames : List String :=
  ["repository", "ref", "token", "ssh-key", "persist-credentials", "path", "clean", "fetch-depth",
    "lfs", "submodules"]

/-- Two checkouts have the same inputs. All history is the same as a depth of zero. -/
structure SameInputs (c d : Checkout) : Prop where
  repository : c.repository = d.repository
  ref : c.ref = d.ref
  token : c.token = d.token
  sshKey : c.sshKey = d.sshKey
  persistCredentials : c.persistCredentials = d.persistCredentials
  path : c.path = d.path
  clean : c.clean = d.clean
  fetchDepth : c.fetchDepth.map FetchDepth.count = d.fetchDepth.map FetchDepth.count
  lfs : c.lfs = d.lfs
  submodules : c.submodules = d.submodules
  extra : c.extra = d.extra

lemma map_text_eq_iff {d e : Option FetchDepth} :
    d.map FetchDepth.text = e.map FetchDepth.text ↔
      d.map FetchDepth.count = e.map FetchDepth.count := by
  cases d <;> cases e <;> simp [FetchDepth.text_eq_text_iff]

lemma map_flagText_eq_iff {a b : Option Bool} : a.map flagText = b.map flagText ↔ a = b :=
  (Option.map_injective flagText_injective).eq_iff

/-- The texts of the typed inputs tell what they are. -/
lemma sameInputs_iff {c d : Checkout} :
    c.SameInputs d ↔ c.inputs = d.inputs ∧ c.extra = d.extra := by
  simp only [inputs, List.cons.injEq, Prod.mk.injEq, true_and, and_true, map_text_eq_iff,
    map_flagText_eq_iff]
  constructor
  · intro h
    exact ⟨⟨h.repository, h.ref, h.token, h.sshKey, h.persistCredentials, h.path, h.clean,
      h.fetchDepth, h.lfs, h.submodules⟩, h.extra⟩
  · rintro ⟨⟨repository, ref, token, sshKey, persistCredentials, path, clean, fetchDepth, lfs,
      submodules⟩, extra⟩
    exact ⟨repository, ref, token, sshKey, persistCredentials, path, clean, fetchDepth, lfs,
      submodules, extra⟩

/-- If no free input has the name of a typed one, both can be told from what is handed over. -/
theorem arguments_eq_arguments_iff {c d : Checkout} (hc : ∀ k ∈ c.extra.keys, k ∉ inputNames)
    (hd : ∀ k ∈ d.extra.keys, k ∉ inputNames) :
    (Action.checkout c).arguments = (Action.checkout d).arguments ↔ c.SameInputs d := by
  have distinct (c : Checkout) : (c.inputs.map Prod.fst).Nodup :=
    (Action.checkout c).nodup_keys_typedInputs
  -- without a common name, the typed inputs and the free ones stand one after the other
  have handed_over (c : Checkout) (apart : ∀ k ∈ c.extra.keys, k ∉ inputNames) :
      (Action.checkout c).arguments.entries = present c.inputs ++ c.extra.entries :=
    OrderedMap.entries_merge_of_nodup (distinct c) c.extra.distinct apart
  rw [sameInputs_iff]
  constructor
  · intro same
    have entries_eq := congrArg OrderedMap.entries same
    rw [handed_over c hc, handed_over d hd] at entries_eq
    have same_keys : c.inputs.map Prod.fst = d.inputs.map Prod.fst := rfl
    obtain ⟨inputs_eq, extra_eq⟩ := present_append_inj same_keys (distinct c) hc hd entries_eq
    exact ⟨inputs_eq, OrderedMap.ext extra_eq⟩
  · rintro ⟨inputs_eq, extra_eq⟩
    simp only [Action.arguments, Action.typedInputs, Action.freeInputs, inputs_eq, extra_eq]

end Checkout

/-! ## All actions -/

namespace Action

/-- The step of each kind of action lists the inputs of that kind: only a checkout and an
installation of Nix have typed ones. Two checkouts without free inputs of typed names hand over the
same exactly if their inputs are the same. -/
structure InputsFaithful : Prop where
  published (owner name version : String) (free : Arguments) :
    Lists [] free (.uses (.published owner name version free))
  inRepository (path : String) (free : Arguments) : Lists [] free (.uses (.inRepository path free))
  container (image tag : String) (free : Arguments) :
    Lists [] free (.uses (.container image tag free))
  checkout (c : Checkout) : Lists
    [("repository", c.repository), ("ref", c.ref), ("token", c.token), ("ssh-key", c.sshKey),
      ("persist-credentials", c.persistCredentials.map fun b => if b then "true" else "false"),
      ("path", c.path), ("clean", c.clean.map fun b => if b then "true" else "false"),
      ("fetch-depth", c.fetchDepth.map fun
        | .unlimited => "0"
        | .commits count => toString count),
      ("lfs", c.lfs.map fun b => if b then "true" else "false"),
      ("submodules", c.submodules.map fun b => if b then "true" else "false")]
    c.extra (.uses (.checkout c))
  installNix (n : InstallNix) : Lists
    [("install_url", n.installUrl),
      ("install_options", n.installOptions.map fun lines => "\n".intercalate lines),
      ("nix_path", n.nixPath), ("extra_nix_config", n.extraNixConfig)]
    n.extra (.uses (.installNix n))
  told_apart (c d : Checkout) : (∀ k ∈ c.extra.keys, k ∉ Checkout.inputNames) →
    (∀ k ∈ d.extra.keys, k ∉ Checkout.inputNames) →
    ((Action.checkout c).arguments = (Action.checkout d).arguments ↔ c.SameInputs d)

/-- **Inputs reach the step faithfully.** For every kind of action, the step lists the typed inputs
that are set under their names, in their order, and the free ones in place of these or behind. -/
theorem inputs_faithful : InputsFaithful where
  published owner name version free := (Action.published owner name version free).lists_uses
  inRepository path free := (Action.inRepository path free).lists_uses
  container image tag free := (Action.container image tag free).lists_uses
  checkout c := (Action.checkout c).lists_uses
  installNix n := (Action.installNix n).lists_uses
  told_apart _ _ := Checkout.arguments_eq_arguments_iff

/-- A free input replaces the value of a typed one that is set, and one that has the name of an
input that is not set stands behind. All history and a depth of zero are handed over alike. -/
theorem mirror_inputs :
    let mirror : Checkout :=
      { ref := some "main", fetchDepth := some .unlimited, lfs := some true
        extra := .ofList [("sparse-checkout", "src"), ("ref", "dev"), ("token", "none")] }
    let nix : InstallNix :=
      { installOptions := some ["--daemon", "--no-channel-add"], nixPath := some "nixpkgs"
        extra := .ofList [("nix_path", "stable"), ("install_url", "local")] }
    let deep : Checkout :=
      { fetchDepth := some .unlimited, clean := some false
        extra := .ofList [("sparse-checkout", "src")] }
    let zero : Checkout := { deep with fetchDepth := some (.commits 0), version := some "v4" }
    (Step.uses (.checkout mirror)).record.get? "with"
        = some (.mapping [("ref", .string "dev"), ("fetch-depth", .string "0"),
          ("lfs", .string "true"), ("sparse-checkout", .string "src"),
          ("token", .string "none")]) ∧
      (Step.uses (.installNix nix)).record.get? "with"
        = some (.mapping [("install_options", .string "--daemon\n--no-channel-add"),
          ("nix_path", .string "stable"), ("install_url", .string "local")]) ∧
      (∀ k ∈ deep.extra.keys, k ∉ Checkout.inputNames) ∧
      (∀ k ∈ zero.extra.keys, k ∉ Checkout.inputNames) ∧
      (checkout deep).arguments = (checkout zero).arguments ∧ deep.SameInputs zero ∧
      deep.fetchDepth ≠ zero.fetchDepth := by
  intro mirror nix deep zero
  have faithful := inputs_faithful
  obtain ⟨inputs, found⟩ := (faithful.checkout mirror).lists_iff.2
    (.inl ⟨("ref", some "main"), by decide, rfl⟩)
  obtain ⟨inputs', found'⟩ := (faithful.installNix nix).lists_iff.2
    (.inl ⟨("nix_path", some "nixpkgs"), by decide, rfl⟩)
  have apart : ∀ k ∈ deep.extra.keys, k ∉ Checkout.inputNames := by decide
  have same : (checkout deep).arguments = (checkout zero).arguments := by decide
  refine ⟨?_, ?_, apart, apart, same, (faithful.told_apart deep zero apart apart).1 same,
    by decide⟩
  · rw [found, (faithful.checkout mirror).listed _ found]
    rfl
  · rw [found', (faithful.installNix nix).listed _ found']
    rfl

end Action

end WorkflowFile
