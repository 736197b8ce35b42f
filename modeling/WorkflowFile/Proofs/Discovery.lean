import Mathlib.Data.Set.List
import WorkflowFile.Proofs.Locator
import WorkflowFile.Repository

/-!
# Sources in the repositories that are found for them

Where no root is given, it is that of the repository around the source. The search undoes the steps
up in the path of the source, but the locator of the source is found without undoing them.

* `Repository.EnclosesFrom` is what is assumed of a discovery, and `Repository.locates_of_findBy`
  says that the locator of a source without steps up leads to it from the root that any such
  discovery finds.
* `Repository.Meets`: the repository that the search of `Repository.find` comes upon.
* `Repository.prefix_of_searchBack`: a search that starts in a directory comes upon a repository of
  a directory around it, so that the search is such a discovery unless a file of the repository
  names the root (`Repository.enclosesFrom_discover`).
* `Repository.locates_iff_of_find`: whether the locator of a source leads to it from the root that
  is found for it.
-/

namespace WorkflowFile

namespace Repository

variable {fs : FileSystem} {session : Session} {l d : Location} {r : Repository} {p root : Path}
  {slashes : String}

/-- The search for a path comes upon a repository. -/
def Meets (session : Session) (p : Path) (r : Repository) : Prop :=
  ∃ walk l, session.cwd.absolute? p = some walk ∧
    Location.resolve? (startingWalk session.files p.rootSlashes walk) = some l ∧
    searchBack session.files l.reverse = some r

/-- A file of the repository names its work tree. -/
def NamesTree (fs : FileSystem) (r : Repository) : Prop :=
  (∃ q, r.tree? = some (.named q)) ∨ ∃ q, Setup.of? fs r = some (.named q)

/-! ## The search -/

/-- A repository that a directory holds has the directory around that one as its work tree. -/
lemma eq_dropLast_of_held? (h : held? fs l = some r) (tree : r.tree? = some (.surrounding d)) :
    d = l.dropLast := by
  unfold held? at h
  split at h
  · cases h
  · split at h
    · -- a repository with a link back is named there
      split at h <;> cases h
      cases tree
    · split at h
      · cases h
      · cases h
        dsimp only at tree
        split at tree <;> cases tree
        rfl

/-- A repository that a link leads to, and that surrounds a work tree, has the directory with the
link as that tree. -/
lemma eq_of_linked? {content : String} (h : linked? fs l content = some r)
    (tree : r.tree? = some (.surrounding d)) : d = l := by
  obtain ⟨target, -, h⟩ := Option.bind_eq_some_iff.1 h
  obtain ⟨directory, -, h⟩ := Option.bind_eq_some_iff.1 h
  split at h <;> cases h
  cases tree
  rfl

/-- A work tree that is known by where a repository is found is the directory around that place. -/
lemma eq_dropLast_of_at? (h : at? fs l = some r) (tree : r.tree? = some (.surrounding d)) :
    d = l.dropLast := by
  unfold at? at h
  split at h
  · exact eq_dropLast_of_held? h tree
  · exact eq_of_linked? h tree
  · cases h

/-- A search goes through the directories around the one it starts in. -/
theorem prefix_of_searchBack {back : List String} (h : searchBack fs back = some r)
    (tree : r.tree? = some (.surrounding d)) : d <+: back.reverse := by
  have either {a b : Option Repository} (h : (a <|> b) = some r) : a = some r ∨ b = some r := by
    cases a <;> simp_all
  -- at the root, at a directory with the name of a repository, and elsewhere
  induction back using searchBack.induct with
  | case1 =>
    rcases either h with h | h <;> rw [eq_dropLast_of_at? h tree] <;> exact List.prefix_rfl
  | case2 outer ih =>
    have around : outer.reverse <+: (directoryName :: outer).reverse := by
      rw [List.reverse_cons]
      exact List.prefix_append ..
    unfold searchBack at h
    rw [if_pos rfl] at h
    rcases either h with h | h
    · rw [eq_dropLast_of_at? h tree]
      exact List.dropLast_prefix _
    · rcases either h with h | h
      · rw [eq_dropLast_of_at? h tree]
        exact (List.dropLast_prefix _).trans around
      · -- the search passes over one directory
        obtain _ | ⟨inner, _ | ⟨passed, rest⟩⟩ := outer
        · cases h
        · cases h
        · have outside : rest.reverse <+: (inner :: passed :: rest).reverse := by
            rw [List.reverse_prefix]
            exact List.suffix_append [inner, passed] rest
          exact ((ih h).trans outside).trans around
  | case3 name outer other ih =>
    have around : outer.reverse <+: (name :: outer).reverse := by
      rw [List.reverse_cons]
      exact List.prefix_append ..
    unfold searchBack at h
    rw [if_neg other] at h
    rcases either h with h | h
    · obtain rfl : d = (name :: outer).reverse :=
        (eq_dropLast_of_at? h tree).trans List.dropLast_concat
      exact List.prefix_rfl
    · rcases either h with h | h
      · rw [eq_dropLast_of_at? h tree]
        exact List.dropLast_prefix _
      · exact (ih h).trans around

/-! ## What is found -/

/-- A work tree that no file names is told by the search. -/
lemma exists_of_workTree (h : r.workTree fs slashes = .ok root) (unnamed : ¬ r.NamesTree fs) :
    ∃ d, r.tree? = some (.surrounding d) ∧ root = .ofSegments slashes d := by
  have found : r.tree?.map (Tree.path slashes) = some root := by
    unfold workTree at h
    split at h
    · cases h
    · next setup setup_eq =>
      split at h
      · next tree under =>
        cases h
        unfold treeUnder? at under
        -- settings that name no work tree leave it at what the search tells
        cases setup with
        | bare =>
          dsimp only at under
          split at under
          · cases under
          · exact under
        | silent => exact under
        | named q => exact absurd (Or.inr ⟨q, setup_eq⟩) unnamed
      · cases h
  obtain ⟨tree, known, rfl⟩ := Option.map_eq_some_iff.1 found
  cases tree with
  | surrounding d => exact ⟨d, known, rfl⟩
  | named q => exact absurd (Or.inl ⟨q, known⟩) unnamed

/-- The search for a path is one around the directory that it starts in. -/
lemma find_eq {walk start : List Component} (h : session.cwd.absolute? p = some walk)
    (started : startingWalk session.files p.rootSlashes walk = start)
    (resolved : Location.resolve? start = some l) :
    find session p
      = around session.files (if start.contains .up then "/" else p.rootSlashes) l := by
  subst started
  simp only [find, h, resolved]

/-- What is found for a path is the work tree of a repository that the search comes upon. -/
lemma exists_of_find (found : find session p = .ok root) :
    ∃ r slashes, Meets session p r ∧ (slashes = "/" ∨ slashes = "//") ∧
      r.workTree session.files slashes = .ok root := by
  have leading : p.rootSlashes = "/" ∨ p.rootSlashes = "//" := by
    unfold Path.rootSlashes
    split <;> simp
  unfold find at found
  split at found
  · cases found
  · next walk absolute =>
    dsimp only at found
    split at found
    · next l resolved =>
      unfold around at found
      split at found
      · next r searched =>
        split at searched
        · refine ⟨r, _, ⟨walk, l, absolute, resolved, searched⟩, ?_, found⟩
          split
          · exact Or.inl rfl
          · exact leading
        · cases searched
      · cases found
    · cases found

/-! ## Walks without steps up -/

/-- Without steps up, a walk from the root consists of names. -/
lemma exists_names {cwd : Path} {walk : List Component} (h : cwd.absolute? p = some (.root :: walk))
    (level : Component.up ∉ walk) :
    ∃ names : List String, walk = names.map .name ∧
      ∀ name ∈ names, (Component.name name).Proper := by
  have proper := Path.proper_of_absolute? h
  have named : ∀ step ∈ walk, step ∈ Set.range Component.name := by
    intro step hstep
    obtain ⟨⟨segment, -, -, same⟩, busy⟩ := proper step hstep
    cases step with
    | here => exact absurd rfl busy
    | up => exact absurd hstep level
    | name text => exact ⟨text, rfl⟩
    | root => exact absurd same (Component.ofSegment_ne_root segment)
  have listed : walk ∈ Set.range (List.map Component.name) := by
    rw [Set.range_list_map]
    exact named
  obtain ⟨names, rfl⟩ := listed
  exact ⟨names, rfl, fun name hname => (proper _ (List.mem_map_of_mem hname)).1⟩

/-- What a walk of names resolves to is those names. -/
lemma resolve?_names (names : List String) :
    Location.resolve? (.root :: names.map .name) = some names := by
  -- from any place, the walk leads on through the names
  suffices leads_on : ∀ l : Location,
      (names.map Component.name).foldlM Location.next? l = some (l ++ names) from leads_on []
  induction names with
  | nil => simp
  | cons name names ih =>
    intro l
    rw [List.map_cons, List.foldlM_cons]
    exact (ih (l ++ [name])).trans (by simp)

/-- The beginning of a walk of names resolves to the beginning of the names. -/
lemma prefix_of_resolve? {names : List String} {start : List Component}
    (begins : start <+: .root :: names.map .name) (resolved : Location.resolve? start = some l) :
    l <+: names := by
  rw [List.prefix_cons_iff] at begins
  rcases begins with rfl | ⟨taken, rfl, begins⟩
  · cases resolved
    exact List.nil_prefix
  · rw [List.prefix_iff_eq_take.1 begins, ← List.map_take, resolve?_names] at resolved
    cases resolved
    exact List.take_prefix _ names

/-- The search for a path starts on its way. -/
lemma startingWalk_prefix_walk (fs : FileSystem) (slashes : String) (walk : List Component) :
    startingWalk fs slashes walk <+: walk := by
  unfold startingWalk
  split
  · split
    · exact List.prefix_rfl
    · exact List.dropLast_prefix walk
  · exact List.dropLast_prefix walk

/-! ## Any discovery -/

/-- The work tree that is found from a directory, which is given by its walk from the root. -/
abbrev Discovery := List Component → Except Fault Path

/-- The root of the work tree that a discovery finds for a path. -/
def findBy (discovery : Discovery) (session : Session) (p : Path) : Except Fault Path :=
  match session.cwd.absolute? p with
  | none => .error (.inaccessible p .emptyPath)
  | some walk => discovery (startingWalk session.files p.rootSlashes walk)

/-- What is assumed of a discovery from a directory: the walk to the directory is resolved by its
steps alone, and the work tree that is found encloses the place that it resolves to. Its path starts
at the root and has no idle steps or steps up. -/
structure EnclosesFrom (discovery : Discovery) (start : List Component) : Prop where
  resolves : ∀ {root}, discovery start = .ok root → ∃ l, Location.resolve? start = some l
  encloses : ∀ {root l}, discovery start = .ok root → Location.resolve? start = some l →
    ∃ d, d <+: l ∧ root.components = .root :: d.map .name

/-- Without steps up, a path goes on from the root that a discovery finds for it. -/
lemma components_prefix_of_findBy {discovery : Discovery} {walk : List Component}
    (found : findBy discovery session p = .ok root)
    (h : session.cwd.absolute? p = some (.root :: walk)) (level : Component.up ∉ walk)
    (enclosing : EnclosesFrom discovery
      (startingWalk session.files p.rootSlashes (.root :: walk))) :
    root.components <+: .root :: walk := by
  unfold findBy at found
  rw [h] at found
  obtain ⟨l, resolved⟩ := enclosing.resolves found
  obtain ⟨d, around, components_eq⟩ := enclosing.encloses found resolved
  obtain ⟨names, rfl, -⟩ := exists_names h level
  -- the work tree is around the directory that the search starts in, and that is on the way
  have inner : d <+: names :=
    around.trans (prefix_of_resolve? (startingWalk_prefix_walk _ _ _) resolved)
  rw [components_eq]
  exact (List.prefix_cons_inj _).2 (inner.map _)

/-- **Sources in enclosing repositories.** From the root that a discovery finds for a source, the
locator of the source leads to it if its walk has no steps up. -/
theorem locates_of_findBy {discovery : Discovery} {walk : List Component}
    (found : findBy discovery session p = .ok root) (absolute : root.isAbsolute)
    (absolute_cwd : session.cwd.isAbsolute) (h : session.cwd.absolute? p = some walk)
    (level : Component.up ∉ walk)
    (enclosing : EnclosesFrom discovery (startingWalk session.files p.rootSlashes walk)) :
    Locator.Locates session.cwd root p := by
  apply Locator.locates_of_below absolute h
  obtain ⟨rest, rfl⟩ := Path.exists_root_cons absolute_cwd h
  exact components_prefix_of_findBy found h (fun up => level (List.mem_cons_of_mem _ up)) enclosing

/-! ## The discovery of repositories -/

/-- The discovery of repositories for a path. -/
def discover (session : Session) (p : Path) : Discovery := fun start =>
  match Location.resolve? start with
  | some l => around session.files (if start.contains .up then "/" else p.rootSlashes) l
  | none => .error (.misconfigured .noRepository)

lemma find_eq_findBy (session : Session) (p : Path) :
    find session p = findBy (discover session p) session p := rfl

/-- The search for a path finds an enclosing work tree if its walk has no steps up, unless a file of
the repository names another one. -/
lemma enclosesFrom_discover {walk : List Component}
    (unnamed : ∀ r, Meets session p r → ¬ r.NamesTree session.files)
    (h : session.cwd.absolute? p = some (.root :: walk)) (level : Component.up ∉ walk) :
    EnclosesFrom (discover session p)
      (startingWalk session.files p.rootSlashes (.root :: walk)) where
  resolves {root} found := by
    cases resolved : Location.resolve?
        (startingWalk session.files p.rootSlashes (.root :: walk)) with
    | none =>
      simp only [discover, resolved] at found
      cases found
    | some l => exact ⟨l, rfl⟩
  encloses {root l} found resolved := by
    have found : find session p = .ok root := by
      rw [find_eq_findBy, findBy, h]
      exact found
    obtain ⟨r, slashes, meets, leading, under⟩ := exists_of_find found
    obtain ⟨d, known, rfl⟩ := exists_of_workTree under (unnamed r meets)
    obtain ⟨walk', l', h', resolved', searched⟩ := meets
    obtain rfl := Option.some.inj (h.symm.trans h')
    obtain rfl := Option.some.inj (resolved.symm.trans resolved')
    have around := prefix_of_searchBack searched known
    rw [List.reverse_reverse] at around
    obtain ⟨names, rfl, proper⟩ := exists_names h level
    have inner : d <+: names :=
      around.trans (prefix_of_resolve? (startingWalk_prefix_walk _ _ _) resolved)
    exact ⟨d, around, Path.components_ofSegments
      (fun name hname => proper name (inner.subset hname)) leading⟩

/-- **Sources in the repositories found for them.** From the root that is found for a source, its
locator leads to it exactly if its walk goes on from the root, or if it is relative and leads to
the same place from the root as from the current directory. Without steps up it does, unless a
file of the repository names the root. -/
theorem locates_iff_of_find (found : find session p = .ok root) (absolute : root.isAbsolute) :
    ∃ walk, session.cwd.absolute? p = some walk ∧
      (Locator.Locates session.cwd root p ↔ root.components <+: walk ∨
        p.isAbsolute = false ∧
          (Path.place session.cwd root).follow p.steps = Path.place session.cwd p) ∧
      (session.cwd.isAbsolute → Component.up ∉ walk →
        (∀ r, Meets session p r → ¬ r.NamesTree session.files) →
        Locator.Locates session.cwd root p) := by
  obtain ⟨-, -, ⟨walk, -, h, -, -⟩, -, -⟩ := exists_of_find found
  refine ⟨walk, h, Locator.locates_iff absolute h, fun absolute_cwd level unnamed => ?_⟩
  obtain ⟨rest, rfl⟩ := Path.exists_root_cons absolute_cwd h
  have enclosing := enclosesFrom_discover unnamed h fun up => level (List.mem_cons_of_mem _ up)
  exact locates_of_findBy (find_eq_findBy session p ▸ found) absolute absolute_cwd h level enclosing

/-- A repository next to another directory, seen from within that one. -/
def neighbour : Session where
  files := ⟨.ofList [(["srv"], .directory), (["srv", "repo"], .directory),
    (["srv", "repo", ".git"], .directory),
    (["srv", "repo", ".git", "HEAD"], .file "ref: refs/heads/main\n"),
    (["srv", "repo", ".git", "objects"], .directory),
    (["srv", "repo", ".git", "refs"], .directory),
    (["srv", "tools"], .directory), (["srv", "tools", "ci"], .directory)]⟩
  cwd := ⟨"/srv/tools/ci"⟩

/-- An absolute source without steps up is located from the root that is found for it. -/
theorem neighbour_located :
    find neighbour ⟨"/srv/repo/ci.rs"⟩ = .ok ⟨"/srv/repo"⟩ ∧
      (⟨"/srv/repo"⟩ : Path).isAbsolute ∧
      Locator.Locates neighbour.cwd ⟨"/srv/repo"⟩ ⟨"/srv/repo/ci.rs"⟩ := by
  have absolute : (⟨"/srv/repo"⟩ : Path).isAbsolute := by decide
  have walk_eq : neighbour.cwd.absolute? ⟨"/srv/repo/ci.rs"⟩
      = some [.root, .name "srv", .name "repo", .name "ci.rs"] := by decide
  have start_eq : startingWalk neighbour.files (⟨"/srv/repo/ci.rs"⟩ : Path).rootSlashes
      [.root, .name "srv", .name "repo", .name "ci.rs"]
        = [.root, .name "srv", .name "repo"] := by decide
  have found : find neighbour ⟨"/srv/repo/ci.rs"⟩ = .ok ⟨"/srv/repo"⟩ := by
    rw [find_eq walk_eq start_eq rfl]
    rfl
  obtain ⟨walk, walk_eq', -, located⟩ := locates_iff_of_find found absolute
  obtain rfl := Option.some.inj (walk_eq.symm.trans walk_eq')
  refine ⟨found, absolute, located (by decide) (by decide) ?_⟩
  -- the search comes upon the repository in the root, and no file of it names a work tree
  rintro r ⟨walk, l, walk_eq', resolved, searched⟩ named
  obtain rfl := Option.some.inj (walk_eq.symm.trans walk_eq')
  rw [start_eq] at resolved
  cases resolved
  cases searched
  rcases named with ⟨_, named⟩ | ⟨_, named⟩ <;> cases named

/-- A source whose path has steps up in front of the root is not located from the root that is found
for it, although it lies below: an absolute one has no locator, and that of a relative one leads
elsewhere. -/
theorem neighbour_not_located :
    (find neighbour ⟨"/srv/tools/../repo/ci.rs"⟩ = .ok ⟨"/srv/repo"⟩ ∧
      Path.place neighbour.cwd ⟨"/srv/tools/../repo/ci.rs"⟩ = ["srv", "repo", "ci.rs"] ∧
      ¬ Locator.Locates neighbour.cwd ⟨"/srv/repo"⟩ ⟨"/srv/tools/../repo/ci.rs"⟩) ∧
    find neighbour ⟨"../../repo/ci.rs"⟩ = .ok ⟨"/srv/repo"⟩ ∧
      Path.place neighbour.cwd ⟨"../../repo/ci.rs"⟩ = ["srv", "repo", "ci.rs"] ∧
      ¬ Locator.Locates neighbour.cwd ⟨"/srv/repo"⟩ ⟨"../../repo/ci.rs"⟩ := by
  have absolute : (⟨"/srv/repo"⟩ : Path).isAbsolute := by decide
  have walk_eq : neighbour.cwd.absolute? ⟨"/srv/tools/../repo/ci.rs"⟩
      = some [.root, .name "srv", .name "tools", .up, .name "repo", .name "ci.rs"] := by decide
  have walk_eq' : neighbour.cwd.absolute? ⟨"../../repo/ci.rs"⟩
      = some [.root, .name "srv", .name "tools", .name "ci", .up, .up, .name "repo",
          .name "ci.rs"] := by decide
  have found : find neighbour ⟨"/srv/tools/../repo/ci.rs"⟩ = .ok ⟨"/srv/repo"⟩ := by
    rw [find_eq walk_eq rfl rfl]
    rfl
  have found' : find neighbour ⟨"../../repo/ci.rs"⟩ = .ok ⟨"/srv/repo"⟩ := by
    rw [find_eq walk_eq' rfl rfl]
    rfl
  refine ⟨⟨found, by decide, ?_⟩, found', by decide, ?_⟩
  · rw [Locator.locates_iff absolute walk_eq]
    decide
  · rw [Locator.locates_iff absolute walk_eq']
    decide

end Repository

end WorkflowFile
