import REnvTools.Program.Executables

/-!
# What `find_executables` finds

The canonical candidates and the listings of the candidate directories are appended to one list
without repeats. In a tree whose listings are complete the result is every executable in a
candidate directory, with the existing candidates in front.
-/

set_option autoImplicit false

namespace REnvTools.Analysis

open Lib Program

variable {windows : Bool} {architecture : String} {tree : DirectoryTree} {root : PathBuf}

/-! ## Candidates -/

/-- INTERNAL: joining names appends them. -/
theorem components_joinAll (path : PathBuf) (names : List String) :
    (path.joinAll names).components = path.components ++ names.map .normal := by
  unfold PathBuf.joinAll
  induction names generalizing path with
  | nil => simp
  | cons name names ih =>
    rw [List.foldl_cons, ih]
    simp [PathBuf.join]

/-- INTERNAL: a path is told from another by the names joined to a root. -/
theorem joinAll_injective (path : PathBuf) : Function.Injective path.joinAll := by
  intro names names' h
  have hcomponents := congrArg PathBuf.components h
  rw [components_joinAll, components_joinAll, List.append_cancel_left_eq] at hcomponents
  exact List.map_injective_iff.mpr (fun _ _ h => Component.normal.inj h) hcomponents

/-- INTERNAL: the three orders of the architectures. -/
theorem arches_cases (architecture : String) :
    arches architecture = ["aarch64", "arm64", "x64", "i386"] ∨
      arches architecture = ["i386", "x64", "aarch64", "arm64"] ∨
      arches architecture = ["x64", "aarch64", "arm64", "i386"] := by
  unfold arches
  split <;> simp

/-- No layout is looked at twice. -/
theorem nodup_layoutDirectories (windows : Bool) (architecture : String) :
    (layoutDirectories windows architecture).Nodup := by
  unfold layoutDirectories
  rcases arches_cases architecture with h | h | h <;> rw [h] <;> cases windows <;> decide

/-- No candidate comes twice. -/
theorem nodup_executableCandidates (windows : Bool) (architecture : String) (root : PathBuf) :
    (executableCandidates windows architecture root).Nodup := by
  have hnames : (candidateNames windows).Nodup := by cases windows <;> decide
  apply List.nodup_flatMap.mpr
  constructor
  · intro directory _
    exact hnames.map fun name name' h => (join_eq_join.mp h).2
  · refine ((nodup_layoutDirectories windows architecture).map (joinAll_injective root)).imp ?_
    intro directory directory' hne path hpath hpath'
    obtain ⟨name, -, rfl⟩ := List.mem_map.mp hpath
    obtain ⟨name', -, heq⟩ := List.mem_map.mp hpath'
    exact hne (join_eq_join.mp heq).1.symm

/-- The candidates are the canonical names in the candidate directories. -/
theorem mem_executableCandidates {path : PathBuf} :
    path ∈ executableCandidates windows architecture root ↔
      ∃ directory ∈ candidateDirectories windows architecture root,
        ∃ name ∈ candidateNames windows, directory.join name = path := by
  simp only [executableCandidates, List.mem_flatMap, List.mem_map]

/-- INTERNAL: a canonical name is an executable name. -/
theorem isRExecutableName_join {name : String} (h : name ∈ candidateNames windows)
    (directory : PathBuf) : isRExecutableName windows (directory.join name) = true := by
  unfold isRExecutableName
  rw [fileName_join]
  revert h
  cases windows <;> revert name <;> decide

/-- The directories that are read are the candidate directories. -/
theorem mem_candidateParents {directory : PathBuf} :
    directory ∈ sortDedup
        ((executableCandidates windows architecture root).filterMap PathBuf.parent) ↔
      directory ∈ candidateDirectories windows architecture root := by
  rw [mem_sortDedup, List.mem_filterMap]
  constructor
  · rintro ⟨path, hpath, hparent⟩
    obtain ⟨directory', hdirectory', name, -, rfl⟩ := mem_executableCandidates.mp hpath
    rw [parent_join] at hparent
    exact Option.some.inj hparent ▸ hdirectory'
  · intro hdirectory
    obtain ⟨name, hname⟩ : ∃ name, name ∈ candidateNames windows := by
      cases windows
      · exact ⟨"R", by decide⟩
      · exact ⟨"R.exe", by decide⟩
    exact ⟨directory.join name,
      mem_executableCandidates.mpr ⟨directory, hdirectory, name, hname, rfl⟩,
      parent_join directory name⟩

/-! ## The scan -/

/-- The path is a regular file in a candidate directory, under the name of an executable. -/
def IsExecutableOf (windows : Bool) (architecture : String) (tree : DirectoryTree)
    (root path : PathBuf) : Prop :=
  tree.isFile path = true ∧
    (∃ directory ∈ candidateDirectories windows architecture root,
      path.parent = some directory) ∧
    ∃ name, path.fileName = some name ∧ toAsciiLowercase name ∈ executableNames windows

/-- INTERNAL: the scan appends the listings of the directories. -/
theorem foldl_pushAll (listing : PathBuf → List PathBuf) (found directories : List PathBuf) :
    directories.foldl (fun found directory => pushAll found (listing directory)) found =
      pushAll found (directories.flatMap listing) := by
  induction directories generalizing found with
  | nil => rfl
  | cons directory directories ih => rw [List.foldl_cons, ih, List.flatMap_cons, pushAll_append]

/-- INTERNAL: an executable name is a file name. -/
theorem exists_fileName {path : PathBuf} :
    isRExecutableName windows path = true ↔
      ∃ name, path.fileName = some name ∧ toAsciiLowercase name ∈ executableNames windows := by
  unfold isRExecutableName
  rw [List.contains_iff_mem]
  cases hname : path.fileName with
  | none =>
    simp only [Option.getD_none, reduceCtorEq, false_and, exists_false, iff_false]
    cases windows <;> decide
  | some name => simp

/-- What the listing of a directory adds. -/
theorem mem_extraExecutables (hlisted : tree.Listed) {directory path : PathBuf} :
    path ∈ extraExecutables windows tree directory ↔
      tree.isFile path = true ∧ path.parent = some directory ∧
        ∃ name, path.fileName = some name ∧ toAsciiLowercase name ∈ executableNames windows := by
  rw [← exists_fileName]
  unfold extraExecutables
  constructor
  · intro hpath
    split at hpath
    · cases hpath
    · rw [List.mem_insertionSort, List.mem_filter, Bool.and_eq_true] at hpath
      obtain ⟨hentry, hfile, hname⟩ := hpath
      obtain ⟨name, -, rfl⟩ := List.mem_map.mp hentry
      exact ⟨hfile, parent_join directory name, hname⟩
  · rintro ⟨hfile, hparent, hname⟩
    obtain ⟨name, hfileName, -⟩ := exists_fileName.mp hname
    have hjoin := eq_join_of_parent hparent hfileName
    obtain ⟨entries, hentries, hmem⟩ := hlisted directory name
      (hjoin ▸ DirectoryTree.pathExists_of_isFile hfile)
    rw [hentries]
    dsimp only
    rw [List.mem_insertionSort, List.mem_filter, Bool.and_eq_true]
    exact ⟨List.mem_map.mpr ⟨name, hmem, hjoin.symm⟩, hfile, hname⟩

/-- **Executable discovery**: no executable comes twice, every executable in a candidate directory
is found and nothing else, the candidates that exist come first and in their order, and
`find_executable` fails only if there is none. -/
theorem findExecutables_exact (hlisted : tree.Listed) (hroot : tree.isDir root = true) :
    (findExecutables windows architecture tree root).Nodup ∧
    (∀ path, path ∈ findExecutables windows architecture tree root ↔
      IsExecutableOf windows architecture tree root path) ∧
    (executableCandidates windows architecture root).filter tree.isFile <+:
      findExecutables windows architecture tree root ∧
    (findExecutable windows architecture tree root = none ↔
      ∀ path, ¬IsExecutableOf windows architecture tree root path) := by
  have hrun : findExecutables windows architecture tree root =
      pushAll ((executableCandidates windows architecture root).filter tree.isFile)
        ((sortDedup ((executableCandidates windows architecture root).filterMap
          PathBuf.parent)).flatMap (extraExecutables windows tree)) := by
    unfold findExecutables
    rw [DirectoryTree.isFile_of_isDir hroot, if_neg Bool.false_ne_true]
    exact foldl_pushAll _ _ _
  have hmem : ∀ path, path ∈ findExecutables windows architecture tree root ↔
      IsExecutableOf windows architecture tree root path := by
    intro path
    rw [hrun, mem_pushAll, List.mem_filter, List.mem_flatMap, mem_executableCandidates]
    unfold IsExecutableOf
    constructor
    · rintro (⟨⟨directory, hdirectory, name, hname, rfl⟩, hfile⟩ | ⟨directory, hdirectory, hextra⟩)
      · exact ⟨hfile, ⟨directory, hdirectory, parent_join directory name⟩,
          exists_fileName.mp (isRExecutableName_join hname directory)⟩
      · obtain ⟨hfile, hparent, hname⟩ := (mem_extraExecutables hlisted).mp hextra
        exact ⟨hfile, ⟨directory, mem_candidateParents.mp hdirectory, hparent⟩, hname⟩
    · rintro ⟨hfile, ⟨directory, hdirectory, hparent⟩, hname⟩
      exact .inr ⟨directory, mem_candidateParents.mpr hdirectory,
        (mem_extraExecutables hlisted).mpr ⟨hfile, hparent, hname⟩⟩
  refine ⟨?_, hmem, ?_, ?_⟩
  · rw [hrun]
    exact nodup_pushAll ((nodup_executableCandidates windows architecture root).filter _) _
  · rw [hrun]
    exact isPrefix_pushAll _ _
  · unfold findExecutable
    rw [List.head?_eq_none_iff, List.eq_nil_iff_forall_not_mem]
    exact forall_congr' fun path => not_congr (hmem path)

/-- An installation with a launcher in small letters. -/
def variantTree : DirectoryTree :=
  plainTree [rootedPath [], rootedPath ["R"], rootedPath ["R", "bin"]]
    [rootedPath ["R", "bin", "Rscript"], rootedPath ["R", "bin", "r"]] (by decide)

/-- The launcher is found after the canonical candidate. -/
theorem findExecutables_exact_variant :
    findExecutables false "x86_64" variantTree (rootedPath ["R"]) =
        [rootedPath ["R", "bin", "Rscript"], rootedPath ["R", "bin", "r"]] ∧
      ∀ path, path ∈ findExecutables false "x86_64" variantTree (rootedPath ["R"]) ↔
        IsExecutableOf false "x86_64" variantTree (rootedPath ["R"]) path :=
  ⟨by decide, (findExecutables_exact (plainTree_listed _) (by decide)).2.1⟩

end REnvTools.Analysis
