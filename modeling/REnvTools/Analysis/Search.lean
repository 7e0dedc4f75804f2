import REnvTools.Program.Search

/-!
# What the recursive search finds

The walk collects a path for every directory that can be reached from the search root
through directories that are neither ignored nor environments. It does not look below an
environment: that is the test between collecting a directory and reading it.
-/

set_option autoImplicit false

namespace REnvTools.Analysis

open REnvTools.Lib REnvTools.Program

variable {tree : DirectoryTree}

/-! ## The children of a directory -/

/-- INTERNAL: whether a child is to be searched depends on its name. -/
theorem shouldSearch_join (path path' : PathBuf) (name : String) :
    shouldSearchForInstallationsInPath (path.join name) =
      shouldSearchForInstallationsInPath (path'.join name) := by
  unfold shouldSearchForInstallationsInPath PathBuf.join
  simp only [List.getLast?_append, List.getLast?_singleton, Option.some_or]

/-- The children that are searched after a directory. -/
theorem mem_childrenToSearch {directory path : PathBuf} :
    path ∈ childrenToSearch tree directory ↔
      (tree.isCondaEnv directory = false ∧ tree.isPixiEnv directory = false) ∧
        ∃ entries, tree.readDir directory = some entries ∧ ∃ name ∈ entries,
          directory.join name = path ∧ tree.isDir path = true ∧
            shouldSearchForInstallationsInPath path = true := by
  unfold childrenToSearch
  split
  · rename_i henv
    rw [Bool.or_eq_true] at henv
    constructor
    · intro hmem
      cases hmem
    · rintro ⟨⟨hconda, hpixi⟩, -⟩
      rw [hconda, hpixi] at henv
      obtain henv | henv := henv <;> cases henv
  · rename_i henv
    rw [Bool.or_eq_true, not_or, Bool.not_eq_true, Bool.not_eq_true] at henv
    split
    · rename_i hread
      simp [hread]
    · rename_i entries hread
      simp only [List.mem_insertionSort, List.mem_filter, List.mem_map, Bool.and_eq_true, henv,
        hread, and_self, true_and, Option.some.injEq, exists_eq_left']
      constructor
      · rintro ⟨⟨name, hname, hpath⟩, hdir⟩
        exact ⟨name, hname, hpath, hdir⟩
      · rintro ⟨name, hname, hpath, hdir⟩
        exact ⟨⟨name, hname, hpath⟩, hdir⟩

/-- INTERNAL: two spellings of one directory have the same children. -/
theorem childrenToSearch_congr {directory directory' : PathBuf}
    (h : tree.canonicalize directory = tree.canonicalize directory') {name : String}
    (hmem : directory.join name ∈ childrenToSearch tree directory) :
    directory'.join name ∈ childrenToSearch tree directory' := by
  obtain ⟨⟨hconda, hpixi⟩, entries, hread, name', hname, hpath, hdir, hsearch⟩ :=
    mem_childrenToSearch.mp hmem
  have hnames : name' = name := by
    have hcomponents := congrArg PathBuf.components hpath
    simpa [PathBuf.join] using hcomponents
  rw [DirectoryTree.isCondaEnv_congr h] at hconda
  rw [DirectoryTree.isPixiEnv_congr h] at hpixi
  rw [DirectoryTree.readDir_congr h] at hread
  rw [DirectoryTree.isDir_congr (DirectoryTree.canonicalize_join_congr h name)] at hdir
  rw [shouldSearch_join directory directory'] at hsearch
  exact mem_childrenToSearch.mpr
    ⟨⟨hconda, hpixi⟩, entries, hread, name, hnames ▸ hname, rfl, hdir, hsearch⟩

/-- The places that follow a place do not depend on the path that led there. -/
theorem uniform_searchWalk (tree : DirectoryTree) : (searchWalk tree).Uniform := by
  intro directory directory' place hplace hplace' path hpath place' hkey
  have hsame : tree.canonicalize directory = tree.canonicalize directory' :=
    Eq.trans hplace hplace'.symm
  obtain ⟨-, entries, -, name, -, rfl, -⟩ := mem_childrenToSearch.mp hpath
  refine ⟨directory'.join name, childrenToSearch_congr hsame hpath, ?_⟩
  exact (DirectoryTree.canonicalize_join_congr hsame name).symm.trans hkey

/-! ## Completeness -/

/-- The directory can be reached from the root through directories whose names are not
ignored, and which satisfy a condition; the directory itself need not. -/
inductive ReachedThrough (tree : DirectoryTree) (root : PathBuf) (passes : PathBuf → Prop) :
    PathBuf → Prop
  | root (hdir : tree.isDir root = true) : ReachedThrough tree root passes root
  | child {directory : PathBuf} {entries : List String} {name : String}
      (hdirectory : ReachedThrough tree root passes directory) (hpasses : passes directory)
      (hread : tree.readDir directory = some entries) (hname : name ∈ entries)
      (hdir : tree.isDir (directory.join name) = true)
      (hsearch : shouldSearchForInstallationsInPath (directory.join name) = true) :
      ReachedThrough tree root passes (directory.join name)

/-- The directory is an environment of one of the two managers. -/
def IsEnvironment (tree : DirectoryTree) (directory : PathBuf) : Prop :=
  tree.isCondaEnv directory = true ∨ tree.isPixiEnv directory = true

/-- A path to the directory is among the collected ones. -/
def Collected (tree : DirectoryTree) (root directory : PathBuf) : Prop :=
  ∃ path ∈ collectRecursiveSearchPaths tree root,
    ∃ place, tree.canonicalize path = some place ∧ tree.canonicalize directory = some place

/-- **Every directory that is reached without passing an environment is collected.** -/
theorem collected_of_reachedThrough (tree : DirectoryTree) (root directory : PathBuf)
    (h : ReachedThrough tree root (fun passed => ¬ IsEnvironment tree passed) directory) :
    Collected tree root directory := by
  have hreached : ∃ place, tree.canonicalize directory = some place ∧
      (searchWalk tree).Reached [root] place := by
    induction h with
    | root hdir =>
      obtain ⟨place, hplace⟩ := DirectoryTree.exists_canonicalize_of_isDir hdir
      exact ⟨place, hplace, root, List.mem_singleton_self root, place, hplace, .refl⟩
    | @child directory entries name _ hpasses hread hname hdir hsearch ih =>
      obtain ⟨place, hplace, root, hroot, place₀, hroot_place, hpath⟩ := ih
      obtain ⟨place', hplace'⟩ := DirectoryTree.exists_canonicalize_of_isDir hdir
      have hplain : tree.isCondaEnv directory = false ∧ tree.isPixiEnv directory = false := by
        simpa [IsEnvironment] using hpasses
      have hchild : directory.join name ∈ childrenToSearch tree directory :=
        mem_childrenToSearch.mpr ⟨hplain, entries, hread, name, hname, rfl, hdir, hsearch⟩
      exact ⟨place', hplace', root, hroot, place₀, hroot_place,
        hpath.tail ⟨directory, hplace, _, hchild, hplace'⟩⟩
  obtain ⟨place, hplace, hreached⟩ := hreached
  obtain ⟨path, hpath, hkey⟩ := (Walk.mem_run_iff (uniform_searchWalk tree) _ _).mpr hreached
  exact ⟨path, hpath, place, hkey, hplace⟩

/-! ## Exactness -/

/-- The second place is a directory that the first one has under a name that is not
ignored. -/
def SearchedChild (tree : DirectoryTree) (place child : PathBuf) : Prop :=
  ∃ entries name, tree.node place = .directory (some entries) ∧ name ∈ entries ∧
    name ∉ foldersToIgnore ∧ tree.canonicalize (place.join name) = some child ∧
      (tree.node child).isDirectory = true

/-- A set of places that holds that of the root, and with a place that is no environment the
directories in it whose names are not ignored. -/
def SearchClosed (tree : DirectoryTree) (root : PathBuf) (places : Set PathBuf) : Prop :=
  (∀ place, tree.canonicalize root = some place → place ∈ places) ∧
    ∀ place ∈ places, ¬IsEnvironment tree place →
      ∀ child, SearchedChild tree place child → child ∈ places

/-- INTERNAL: what is to be searched is told by the name. -/
theorem shouldSearch_join_iff (path : PathBuf) (name : String) :
    shouldSearchForInstallationsInPath (path.join name) = true ↔ name ∉ foldersToIgnore := by
  unfold shouldSearchForInstallationsInPath PathBuf.join
  rw [List.getLast?_concat, Bool.not_eq_true', ← Bool.not_eq_true, List.any_eq_true]
  simp

/-- INTERNAL: a directory and its canonical path are environments alike. -/
theorem isEnvironment_iff_of_canonicalize {path place : PathBuf}
    (hplace : tree.canonicalize path = some place)
    (hdir : (tree.node place).isDirectory = true) :
    IsEnvironment tree path ↔ IsEnvironment tree place := by
  have hmeta : tree.canonicalize (path.join "conda-meta") =
      tree.canonicalize (place.join "conda-meta") := by
    rw [tree.canonicalize_join path, hplace, Option.bind_some, if_pos hdir]
  have hpixi := DirectoryTree.canonicalize_join_congr hmeta "pixi"
  unfold IsEnvironment DirectoryTree.isCondaEnv DirectoryTree.isPixiEnv
  rw [DirectoryTree.isDir_congr hmeta, DirectoryTree.isFile_congr hpixi]

/-- INTERNAL: the steps of the walk are the children of directories that are no
environments. -/
theorem next_searchWalk_iff {place child : PathBuf}
    (hplace : ∃ path, tree.canonicalize path = some place) :
    (searchWalk tree).Next place child ↔
      ¬IsEnvironment tree place ∧ SearchedChild tree place child := by
  constructor
  · rintro ⟨path, hpath, next, hnext, hchild⟩
    change tree.canonicalize path = some place at hpath
    change tree.canonicalize next = some child at hchild
    obtain ⟨⟨hconda, hpixi⟩, entries, hread, name, hname, rfl, hdir, hsearch⟩ :=
      mem_childrenToSearch.mp hnext
    have hnode : tree.node place = .directory (some entries) := by
      unfold DirectoryTree.readDir at hread
      rw [hpath] at hread
      dsimp only at hread
      split at hread
      · rename_i hentries
        rw [hentries, hread]
      · cases hread
      · cases hread
    have hplace_dir : (tree.node place).isDirectory = true := by
      rw [hnode]
      rfl
    constructor
    · rw [← isEnvironment_iff_of_canonicalize hpath hplace_dir, IsEnvironment, hconda, hpixi]
      simp
    · refine ⟨entries, name, hnode, hname, (shouldSearch_join_iff path name).mp hsearch, ?_, ?_⟩
      · rw [tree.canonicalize_join path, hpath, Option.bind_some, if_pos hplace_dir] at hchild
        exact hchild
      · unfold DirectoryTree.isDir at hdir
        rw [hchild] at hdir
        exact hdir
  · rintro ⟨hplain, entries, name, hnode, hname, hsearch, hchild, hdir⟩
    obtain ⟨path, hpath⟩ := hplace
    have hplace_dir : (tree.node place).isDirectory = true := by
      rw [hnode]
      rfl
    have hjoin : tree.canonicalize (path.join name) = some child := by
      rw [tree.canonicalize_join path, hpath, Option.bind_some, if_pos hplace_dir, hchild]
    rw [← isEnvironment_iff_of_canonicalize hpath hplace_dir, IsEnvironment, not_or,
      Bool.not_eq_true, Bool.not_eq_true] at hplain
    refine ⟨path, hpath, path.join name, mem_childrenToSearch.mpr ⟨hplain, entries, ?_, name,
      hname, rfl, ?_, (shouldSearch_join_iff path name).mpr hsearch⟩, hjoin⟩
    · unfold DirectoryTree.readDir
      rw [hpath]
      simp only [hnode]
    · unfold DirectoryTree.isDir
      rw [hjoin]
      exact hdir

/-- The canonical targets of the collected paths are the least closed set of places. -/
theorem isLeast_collected (tree : DirectoryTree) (root : PathBuf) :
    IsLeast {places | SearchClosed tree root places}
      {place | ∃ path ∈ collectRecursiveSearchPaths tree root,
        tree.canonicalize path = some place} := by
  have hleast := Walk.isLeast_run (uniform_searchWalk tree) [root]
  obtain ⟨⟨hroots, hclosed⟩, hlower⟩ := hleast
  constructor
  · refine ⟨fun place => hroots root (List.mem_singleton_self root) place, ?_⟩
    intro place hmem hplain child hchild
    obtain ⟨path, -, hpath⟩ := id hmem
    exact hclosed place hmem child
      ((next_searchWalk_iff ⟨path, hpath⟩).mpr ⟨hplain, hchild⟩)
  · rintro places ⟨hroot, hplaces⟩
    -- the places that some path leads to are closed under the steps of the walk
    have hsubset := hlower (a := {place | place ∈ places ∧
      ∃ path, tree.canonicalize path = some place}) ⟨?_, ?_⟩
    · exact fun place hplace => (hsubset hplace).1
    · intro path hpath place hplace
      rw [List.mem_singleton.mp hpath] at hplace
      exact ⟨hroot place hplace, root, hplace⟩
    · rintro place ⟨hmem, hpath⟩ child hnext
      obtain ⟨hplain, hchild⟩ := (next_searchWalk_iff hpath).mp hnext
      obtain ⟨entries, name, -, -, -, hjoin, -⟩ := id hchild
      exact ⟨hplaces place hmem hplain child hchild, _, hjoin⟩

/-! ## The order of entries -/

/-- The nodes are the same but for the order in which `read_dir` gives the entries. -/
inductive SameEntries : Node → Node → Prop
  | file : SameEntries .file .file
  | other : SameEntries .other .other
  | unreadable : SameEntries (.directory none) (.directory none)
  | directory {entries entries' : List String} (h : entries.Perm entries') :
    SameEntries (.directory (some entries)) (.directory (some entries'))

/-- The trees are the same but for the order in which `read_dir` gives the entries. -/
structure SameTree (tree tree' : DirectoryTree) : Prop where
  canonicalize : tree.canonicalize = tree'.canonicalize
  node : ∀ place, SameEntries (tree.node place) (tree'.node place)

variable {tree' : DirectoryTree}

/-- A path leads in both trees to nothing, or to nodes that are the same. -/
theorem lookup_of_sameTree (h : SameTree tree tree') (path : PathBuf) :
    (tree.canonicalize path = none ∧ tree'.canonicalize path = none) ∨
      ∃ place node node', tree.canonicalize path = some place ∧
        tree'.canonicalize path = some place ∧ tree.node place = node ∧
        tree'.node place = node' ∧ SameEntries node node' := by
  rw [h.canonicalize]
  cases tree'.canonicalize path with
  | none => exact .inl ⟨rfl, rfl⟩
  | some place => exact .inr ⟨place, _, _, rfl, rfl, rfl, rfl, h.node place⟩

/-- INTERNAL: the same tree has the same directories. -/
theorem isDir_of_sameTree (h : SameTree tree tree') (path : PathBuf) :
    tree.isDir path = tree'.isDir path := by
  unfold DirectoryTree.isDir
  obtain ⟨hpath, hpath'⟩ | ⟨place, node, node', hpath, hpath', hnode, hnode', hsame⟩ :=
    lookup_of_sameTree h path
  · rw [hpath, hpath']
  · simp only [hpath, hpath', hnode, hnode']
    cases hsame <;> rfl

/-- INTERNAL: the same tree has the same files. -/
theorem isFile_of_sameTree (h : SameTree tree tree') (path : PathBuf) :
    tree.isFile path = tree'.isFile path := by
  unfold DirectoryTree.isFile
  obtain ⟨hpath, hpath'⟩ | ⟨place, node, node', hpath, hpath', hnode, hnode', hsame⟩ :=
    lookup_of_sameTree h path
  · rw [hpath, hpath']
  · simp only [hpath, hpath', hnode, hnode']
    cases hsame <;> rfl

/-- What `read_dir` gives in the one tree and in the other. -/
theorem readDir_of_sameTree (h : SameTree tree tree') (path : PathBuf) :
    (tree.readDir path = none ∧ tree'.readDir path = none) ∨
      ∃ entries entries', tree.readDir path = some entries ∧
        tree'.readDir path = some entries' ∧ entries.Perm entries' := by
  unfold DirectoryTree.readDir
  obtain ⟨hpath, hpath'⟩ | ⟨place, node, node', hpath, hpath', hnode, hnode', hsame⟩ :=
    lookup_of_sameTree h path
  · rw [hpath, hpath']
    exact .inl ⟨rfl, rfl⟩
  · simp only [hpath, hpath', hnode, hnode']
    cases hsame with
    | file | other | unreadable => exact .inl ⟨rfl, rfl⟩
    | directory hperm => exact .inr ⟨_, _, rfl, rfl, hperm⟩

/-- INTERNAL: the children are sorted, so their order is that of their paths. -/
theorem childrenToSearch_of_sameTree (h : SameTree tree tree') (directory : PathBuf) :
    childrenToSearch tree directory = childrenToSearch tree' directory := by
  unfold childrenToSearch DirectoryTree.isCondaEnv DirectoryTree.isPixiEnv
  rw [isDir_of_sameTree h, isFile_of_sameTree h]
  obtain ⟨hread, hread'⟩ | ⟨entries, entries', hread, hread', hperm⟩ :=
    readDir_of_sameTree h directory
  · rw [hread, hread']
  · rw [hread, hread']
    dsimp only
    split
    · rfl
    · simp only [isDir_of_sameTree h]
      apply List.Perm.eq_of_pairwise' (List.pairwise_insertionSort _ _)
        (List.pairwise_insertionSort _ _)
      exact ((List.perm_insertionSort _ _).trans ((hperm.map _).filter _)).trans
        (List.perm_insertionSort _ _).symm

/-- The collected list does not depend on the order of entries. -/
theorem collected_of_sameTree (h : SameTree tree tree') (root : PathBuf) :
    collectRecursiveSearchPaths tree root = collectRecursiveSearchPaths tree' root :=
  Walk.run_congr h.canonicalize (funext (childrenToSearch_of_sameTree h)) _ _ _

/-- **The recursive walk is exact.** It ends, for the walk is a total function; the collected
paths have canonical targets that differ from each other and together are the least set that
holds that of the root, and the children to search of each member that is no environment; and
the list is the same in whatever order `read_dir` gives the entries. -/
theorem recursive_walk_exact (tree : DirectoryTree) (root : PathBuf) :
    (∀ path ∈ collectRecursiveSearchPaths tree root,
      ∃ place, tree.canonicalize path = some place) ∧
    ((collectRecursiveSearchPaths tree root).map tree.canonicalize).Nodup ∧
    IsLeast {places | SearchClosed tree root places}
      {place | ∃ path ∈ collectRecursiveSearchPaths tree root,
        tree.canonicalize path = some place} ∧
    ∀ tree', SameTree tree tree' →
      collectRecursiveSearchPaths tree root = collectRecursiveSearchPaths tree' root :=
  ⟨fun _ => Walk.exists_key_of_mem_run (uniform_searchWalk tree),
    Walk.nodup_run (uniform_searchWalk tree) [root], isLeast_collected tree root,
    fun _ hsame => collected_of_sameTree hsame root⟩

/-! ## An environment in a project -/

/-- A directory `/work` with a project in it, which has the environment `/work/project/env` and
a directory of libraries that is not searched. -/
def projectTree : DirectoryTree :=
  plainTree
    [rootedPath [], rootedPath ["work"], rootedPath ["work", "project"],
      rootedPath ["work", "project", "env"], rootedPath ["work", "project", "env", "conda-meta"],
      rootedPath ["work", "project", "library"]]
    [rootedPath ["work", "project", "DESCRIPTION"]] (by decide)

/-- The environment is reached through two directories that are none, and collected. -/
theorem collected_project :
    IsEnvironment projectTree (rootedPath ["work", "project", "env"]) ∧
      Collected projectTree (rootedPath ["work"]) (rootedPath ["work", "project", "env"]) := by
  have hplain : ∀ directory ∈ [rootedPath ["work"], rootedPath ["work", "project"]],
      ¬IsEnvironment projectTree directory := by
    simp only [List.forall_mem_cons, List.not_mem_nil, false_imp_iff, implies_true, and_true]
    constructor
    · rintro (h | h) <;> exact absurd h (by decide)
    · rintro (h | h) <;> exact absurd h (by decide)
  have hproject : ReachedThrough projectTree (rootedPath ["work"])
      (fun passed => ¬IsEnvironment projectTree passed) (rootedPath ["work", "project"]) :=
    @ReachedThrough.child _ _ _ _ ["project"] "project" (.root (by decide))
      (hplain _ (by simp)) (by decide) (by decide) (by decide) (by decide)
  refine ⟨.inl (by decide), collected_of_reachedThrough projectTree _ _ ?_⟩
  exact @ReachedThrough.child _ _ _ _ ["env", "library", "DESCRIPTION"] "env" hproject
    (hplain _ (by simp)) (by decide) (by decide) (by decide) (by decide)

/-! ## An environment below another -/

/-- An environment `/base`, and an environment `/base/envs/x` below it. -/
def nestedTree : DirectoryTree :=
  plainTree
    [rootedPath [], rootedPath ["base"], rootedPath ["base", "conda-meta"],
      rootedPath ["base", "envs"], rootedPath ["base", "envs", "x"],
      rootedPath ["base", "envs", "x", "conda-meta"]] [] (by decide)

/-- INTERNAL: nothing but the search root is collected. -/
theorem collectRecursiveSearchPaths_base :
    collectRecursiveSearchPaths nestedTree (rootedPath ["base"]) = [rootedPath ["base"]] := by
  have hkey : (searchWalk nestedTree).key (rootedPath ["base"]) = some (rootedPath ["base"]) := by
    decide
  have hnext : (searchWalk nestedTree).next (rootedPath ["base"]) = [] := by decide
  unfold collectRecursiveSearchPaths
  rw [Walk.run_find _ hkey (by simp), hnext, List.append_nil, Walk.run]
  rfl

/-- The environment below the search root is not. -/
theorem not_collected_nested :
    ¬ ∀ (tree : DirectoryTree) (root directory : PathBuf),
      ReachedThrough tree root (fun _ => True) directory → IsEnvironment tree directory →
        Collected tree root directory := by
  intro h
  have henvs : ReachedThrough nestedTree (rootedPath ["base"]) (fun _ => True)
      (rootedPath ["base", "envs"]) :=
    @ReachedThrough.child _ _ _ _ ["conda-meta", "envs"] "envs" (.root (by decide)) trivial
      (by decide) (by decide) (by decide) (by decide)
  have hreached : ReachedThrough nestedTree (rootedPath ["base"]) (fun _ => True)
      (rootedPath ["base", "envs", "x"]) :=
    @ReachedThrough.child _ _ _ _ ["x"] "x" henvs trivial
      (by decide) (by decide) (by decide) (by decide)
  obtain ⟨path, hpath, place, hplace, hplace'⟩ := h _ _ _ hreached (.inl (by decide))
  rw [collectRecursiveSearchPaths_base, List.mem_singleton] at hpath
  rw [hpath] at hplace
  have hbase : nestedTree.canonicalize (rootedPath ["base"]) = some (rootedPath ["base"]) := by
    decide
  have hnested : nestedTree.canonicalize (rootedPath ["base", "envs", "x"]) =
      some (rootedPath ["base", "envs", "x"]) := by decide
  rw [hbase] at hplace
  rw [hnested] at hplace'
  have hsame := Option.some.inj (hplace.trans hplace'.symm)
  exact absurd hsame (by decide)

end REnvTools.Analysis
