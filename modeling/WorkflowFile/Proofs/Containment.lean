import Mathlib.Data.List.Infix
import WorkflowFile.Proofs.Relative
import WorkflowFile.Proofs.Target

/-!
# Locators that stay in the repository

Steps up are written into a locator as they are. It stays in the repository as long as the way that
it is written from does.

* `Location.StaysWithin` bounds the steps up at the beginnings of a walk, with one lemma for each
  kind of step.
* `Location.isSome_resolve?_iff`: a walk that never goes above where it starts is one that leads
  somewhere below any start.
* `Locator.Contained`: a locator never goes above the root and leads to a place below it.
* `Locator.contained_write`: it does exactly if the walk it is written from never goes above its
  start.
* `Locator.contained_iff_of_locate`: which paths have such a locator.
-/

namespace WorkflowFile

/-- The step leads to an entry of a directory. -/
def Component.isName : Component → Bool
  | .name _ => true
  | _ => false

namespace Location

/-! ## Walks that stay below their start -/

/-- At no point does the walk go more than `depth` steps above where it starts: no beginning has
more steps up than that and the names in it allow. -/
def StaysWithin (depth : Nat) (walk : List Component) : Prop :=
  ∀ lead, lead <+: walk → lead.count .up ≤ depth + lead.countP Component.isName

/-- The walk never goes above where it starts: no beginning has more steps up than names. -/
def NeverAbove (walk : List Component) : Prop := StaysWithin 0 walk

instance (depth : Nat) (walk : List Component) : Decidable (StaysWithin depth walk) :=
  decidable_of_iff (∀ lead ∈ walk.inits, lead.count .up ≤ depth + lead.countP Component.isName) <|
    by simp only [List.mem_inits]; rfl

instance (walk : List Component) : Decidable (NeverAbove walk) :=
  inferInstanceAs (Decidable (StaysWithin 0 walk))

variable {depth : Nat} {walk : List Component}

lemma staysWithin_nil : StaysWithin depth [] := by
  intro lead start
  rw [List.prefix_nil.1 start]
  exact Nat.zero_le _

/-- The beginnings of a walk with one more step in front have that step in front. -/
lemma staysWithin_cons {step : Component} : StaysWithin depth (step :: walk) ↔
    ∀ lead, lead <+: walk →
      (step :: lead).count .up ≤ depth + (step :: lead).countP Component.isName := by
  constructor
  · intro within lead start
    exact within (step :: lead) ((List.prefix_cons_inj step).2 start)
  · intro within lead start
    rcases List.prefix_cons_iff.1 start with rfl | ⟨behind, rfl, further⟩
    · exact Nat.zero_le _
    · exact within behind further

lemma staysWithin_root : StaysWithin depth (.root :: walk) ↔ StaysWithin depth walk := by
  rw [staysWithin_cons]
  simp [StaysWithin, Component.isName]

/-- An idle step changes nothing. -/
lemma staysWithin_here : StaysWithin depth (.here :: walk) ↔ StaysWithin depth walk := by
  rw [staysWithin_cons]
  simp [StaysWithin, Component.isName]

/-- A name allows for one more step up. -/
lemma staysWithin_name {text : String} :
    StaysWithin depth (.name text :: walk) ↔ StaysWithin (depth + 1) walk := by
  rw [staysWithin_cons]
  refine forall₂_congr fun lead _ => ?_
  have other : Component.name text ≠ .up := nofun
  have ups : (Component.name text :: lead).count .up = lead.count .up :=
    List.count_cons_of_ne other
  have names : (Component.name text :: lead).countP Component.isName
      = lead.countP Component.isName + 1 := List.countP_cons_of_pos rfl
  rw [ups, names]
  omega

/-- A step up has to be allowed for and leaves one less. -/
lemma staysWithin_up :
    StaysWithin depth (.up :: walk) ↔ 0 < depth ∧ StaysWithin (depth - 1) walk := by
  have ups (lead : List Component) : (Component.up :: lead).count .up = lead.count .up + 1 :=
    List.count_cons_self
  have names (lead : List Component) : (Component.up :: lead).countP Component.isName
      = lead.countP Component.isName := List.countP_cons_of_neg (by decide)
  rw [staysWithin_cons]
  constructor
  · intro within
    have allowed : 0 < depth := by
      have := within [] List.nil_prefix
      rw [ups, names, List.count_nil, List.countP_nil] at this
      omega
    refine ⟨allowed, fun lead start => ?_⟩
    have := within lead start
    rw [ups, names] at this
    omega
  · intro within lead start
    have := within.2 lead start
    rw [ups, names]
    omega

/-- Idle steps do not count. -/
lemma staysWithin_filter :
    StaysWithin depth (walk.filter (· ≠ .here)) ↔ StaysWithin depth walk := by
  induction walk generalizing depth with
  | nil => rfl
  | cons step walk ih =>
    cases step with
    | root =>
      rw [List.filter_cons_of_pos (by decide), staysWithin_root, staysWithin_root, ih]
    | here => rw [List.filter_cons_of_neg (by decide), staysWithin_here, ih]
    | up => rw [List.filter_cons_of_pos (by decide), staysWithin_up, staysWithin_up, ih]
    | name text =>
      rw [List.filter_cons_of_pos (by simp), staysWithin_name, staysWithin_name, ih]

/-- A walk can be followed below any start exactly if it never goes above its own. -/
theorem isSome_resolve?_iff (no_root : Component.root ∉ walk) :
    (resolve? walk).isSome ↔ NeverAbove walk := by
  -- in the middle of the walk, it may go up by as many steps as there are names
  suffices ∀ gone : Location, (walk.foldlM next? gone).isSome ↔ StaysWithin gone.length walk from
    this []
  induction walk with
  | nil => exact fun gone => iff_of_true rfl staysWithin_nil
  | cons step walk ih =>
    intro gone
    rw [List.mem_cons, not_or] at no_root
    rw [List.foldlM_cons]
    cases step with
    | root => exact absurd rfl no_root.1
    | here =>
      rw [staysWithin_here]
      exact ih no_root.2 gone
    | name text =>
      have deeper := ih no_root.2 (gone ++ [text])
      rw [List.length_append, List.length_singleton] at deeper
      rw [staysWithin_name]
      exact deeper
    | up =>
      have higher := ih no_root.2 gone.dropLast
      rw [List.length_dropLast] at higher
      rw [staysWithin_up]
      by_cases at_start : gone = []
      · subst at_start
        exact iff_of_false nofun (fun h => Nat.lt_irrefl 0 h.1)
      · have allowed : 0 < gone.length := List.length_pos_iff.2 at_start
        have first : next? gone .up = some gone.dropLast := by
          rw [next?, List.isEmpty_eq_false_iff.2 at_start, if_neg Bool.false_ne_true]
        rw [first, and_iff_right allowed]
        exact higher

end Location

namespace Locator

open Location (NeverAbove)

variable {cwd root p : Path} {s : String} {steps : List Component}

/-! ## Contained locators -/

/-- The locator never goes above where it starts, and seen from the root, it leads to the root or
to a place below. -/
structure Contained (cwd root : Path) (s : String) : Prop where
  never_above : NeverAbove (walk s)
  below : Path.place cwd root <+: Path.place cwd (root.join ⟨s⟩)

instance (cwd root : Path) (s : String) : Decidable (Contained cwd root s) :=
  decidable_of_iff (NeverAbove (walk s) ∧ Path.place cwd root <+: Path.place cwd (root.join ⟨s⟩))
    ⟨fun h => ⟨h.1, h.2⟩, fun h => ⟨h.1, h.2⟩⟩

/-- A written walk is contained exactly if it never goes above where it starts. -/
lemma contained_write (cwd root : Path) (proper : ∀ step ∈ steps, step.Proper) :
    Contained cwd root (write steps) ↔ NeverAbove steps := by
  have read : NeverAbove (walk (write steps)) ↔ NeverAbove steps := by
    rw [walk_write proper]
    exact Location.staysWithin_filter
  refine ⟨fun contained => read.1 contained.never_above, fun inside => ⟨read.2 inside, ?_⟩⟩
  have no_root : Component.root ∉ steps := by
    intro listed
    obtain ⟨segment, -, -, same⟩ := proper .root listed
    exact Component.ofSegment_ne_root segment same
  obtain ⟨names, resolved⟩ :=
    Option.isSome_iff_exists.1 ((Location.isSome_resolve?_iff no_root).2 inside)
  rw [Path.place_join, follow_write proper, Location.follow_eq_append _ no_root resolved]
  exact List.prefix_append _ _

/-- **When a locator stays in the repository.** The locator of a path that goes on from the root is
contained exactly if the way from there never goes above the root, and that of any other path
exactly if the path never goes above where it starts. Whatever file is assembled from a workflow
with that source, it is this locator that its preamble and the commands of its check name. -/
theorem contained_iff_of_locate (absolute : root.isAbsolute) (located : locate cwd root p = .ok s) :
    (∀ rest, cwd.absolute? p = some (root.components ++ rest) →
      (Contained cwd root s ↔ NeverAbove rest)) ∧
    ((∀ rest, cwd.absolute? p ≠ some (root.components ++ rest)) →
      (Contained cwd root s ↔ NeverAbove p.components)) ∧
    ∀ (w : Workflow) (comparison : ConsistencyCheck.Comparison) (o : Options) (r : Rendering),
      w.source = some p → Rendering.assemble cwd (some root) comparison o w = .ok r →
      r.preamble = o.preamble.compose (some s) ∧
      (o.wantsCheck w = true → ∃ target, w.target = some target ∧
        ConsistencyCheck.Checks comparison r.document target s) := by
  refine ⟨?_, ?_, ?_⟩
  · intro rest made
    obtain rfl : write rest = s := Except.ok.inj ((locate_of_absolute? made).symm.trans located)
    have proper : ∀ step ∈ rest, step.Proper := fun step hstep =>
      (Path.proper_of_absolute?_append absolute made step hstep).1
    exact contained_write cwd root proper
  · intro outside
    rw [locate_of_not_below outside] at located
    split at located
    · cases located
    · next relative =>
      cases located
      have hp : p.isAbsolute = false := by simpa using relative
      exact contained_write cwd root fun _ => Path.proper_of_mem_components hp
  · intro w comparison o r sourced assembled
    obtain ⟨sound, preamble_eq, v, made, document_eq⟩ := Rendering.assemble_eq_ok assembled
    refine ⟨?_, fun checked => ?_⟩
    · have named : Rendering.locator? cwd (some root) w = some s := by
        simp only [Rendering.locator?, sourced, located, Except.toOption]
      rw [preamble_eq, named]
    · rw [if_pos checked] at made
      obtain ⟨source, target, locator, sourced', named, located', checks⟩ :=
        ConsistencyCheck.checks_of_install sound made
      cases sourced.symm.trans sourced'
      cases located.symm.trans located'
      exact ⟨target, named, document_eq ▸ checks⟩

/-- A workflow whose source is written with a detour. -/
def detour : Workflow where
  triggers := [.push {}]
  source := some ⟨"ci/../make.rs"⟩
  target := some "make.yml"

/-- The locator of a source with a detour is contained, seen from a directory below the root and
from one that is not, and it is the one that the assembled file names. -/
theorem detour_contained :
    locate ⟨"/work/shop"⟩ ⟨"/work"⟩ ⟨"ci/../make.rs"⟩ = .ok "shop/ci/../make.rs" ∧
      Contained ⟨"/work/shop"⟩ ⟨"/work"⟩ "shop/ci/../make.rs" ∧
    locate ⟨"/tmp"⟩ ⟨"/work"⟩ ⟨"ci/../make.rs"⟩ = .ok "ci/../make.rs" ∧
      Contained ⟨"/tmp"⟩ ⟨"/work"⟩ "ci/../make.rs" ∧
    ∃ r, Rendering.assemble ⟨"/tmp"⟩ (some ⟨"/work"⟩) .direct {} detour = .ok r ∧
      r.preamble = Preamble.generated.compose (some "ci/../make.rs") ∧
      ConsistencyCheck.runs r.document
        = [.string "diff -u '.github/workflows/make.yml' <('ci/../make.rs')"] := by
  have located : locate ⟨"/work/shop"⟩ ⟨"/work"⟩ ⟨"ci/../make.rs"⟩ = .ok "shop/ci/../make.rs" := rfl
  have located' : locate ⟨"/tmp"⟩ ⟨"/work"⟩ ⟨"ci/../make.rs"⟩ = .ok "ci/../make.rs" := rfl
  obtain ⟨below, -, -⟩ := contained_iff_of_locate rfl located
  obtain ⟨-, outside, named⟩ := contained_iff_of_locate rfl located'
  have apart (rest : List Component) : (⟨"/tmp"⟩ : Path).absolute? ⟨"ci/../make.rs"⟩
      ≠ some ((⟨"/work"⟩ : Path).components ++ rest) := by
    intro made
    have second : Component.name "tmp" = .name "work" :=
      (List.cons.inj (List.cons.inj (Option.some.inj made)).2).1
    revert second
    decide
  obtain ⟨r, assembled⟩ :
      ∃ r, Rendering.assemble ⟨"/tmp"⟩ (some ⟨"/work"⟩) .direct {} detour = .ok r := ⟨_, rfl⟩
  obtain ⟨preamble_eq, checked⟩ := named detour .direct {} r rfl assembled
  obtain ⟨target, target_eq, checks⟩ := checked rfl
  cases target_eq
  have inside := (below [.name "shop", .name "ci", .up, .name "make.rs"] rfl).2 (by decide)
  exact ⟨located, inside, located', (outside apart).2 (by decide), r, assembled, preamble_eq,
    checks.direct rfl⟩

/-- An absolute path that goes on from the root and then above it is located, and so is a relative
one that goes above where it starts, but the locator leads out of the repository. -/
theorem parent_not_contained :
    locate ⟨"/"⟩ ⟨"/repo"⟩ ⟨"/repo/../x"⟩ = .ok "../x" ∧
      locate ⟨"/"⟩ ⟨"/repo"⟩ ⟨"../x"⟩ = .ok "../x" ∧ ¬ NeverAbove (walk "../x") ∧
      ¬ Path.place ⟨"/"⟩ ⟨"/repo"⟩ <+: Path.place ⟨"/"⟩ ((⟨"/repo"⟩ : Path).join ⟨"../x"⟩) := by
  decide

end Locator

end WorkflowFile
