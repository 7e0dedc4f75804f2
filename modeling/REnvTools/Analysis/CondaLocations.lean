import REnvTools.Analysis.CondaEnvironments
import REnvTools.Program.CondaLocations
import REnvTools.Program.Metadata

/-!
# The environments that are found

`NamesDirectory` says which directories the sources name; the order in which their threads end does
not matter. All environments of an installation are found as soon as one source names the
installation or any of its environments: what is expanded is sorted and free of repeats, and an
environment expands to all those of its installation.
-/

set_option autoImplicit false

namespace REnvTools.Analysis

open Lib Program DirectoryTree

/-! ## Expansion -/

section Expansion

variable {tree : DirectoryTree} {root : PathBuf}

/-- INTERNAL: what a name leads to is in a directory that exists. -/
theorem pathExists_of_join {path : PathBuf} {name : String}
    (h : tree.pathExists (path.join name) = true) : tree.pathExists path = true := by
  obtain ⟨place, hplace⟩ := Option.isSome_iff_exists.mp h
  exact pathExists_of_isDir (isDir_of_canonicalize_join hplace)

/-- INTERNAL: an environment exists. -/
theorem pathExists_of_isCondaEnv {path : PathBuf} (h : tree.isCondaEnv path = true) :
    tree.pathExists path = true :=
  pathExists_of_join (pathExists_of_isDir (Bool.and_eq_true_iff.mp h).1)

/-- INTERNAL: an installation exists. -/
theorem pathExists_of_isCondaInstall (h : tree.isCondaInstall root = true) :
    tree.pathExists root = true :=
  pathExists_of_join (Bool.and_eq_true_iff.mp (hasInstallLayout_of_isCondaInstall h)).2

/-- The path is the installation, or an environment of it. -/
def BelongsTo (tree : DirectoryTree) (root path : PathBuf) : Prop :=
  path = root ∨ ∃ name, path = namedEnv root name ∧ tree.isCondaEnv path = true

/-- INTERNAL: what belongs to an installation exists. -/
theorem pathExists_of_belongsTo (h : tree.isCondaInstall root = true) {path : PathBuf}
    (hpath : BelongsTo tree root path) : tree.pathExists path = true := by
  obtain rfl | ⟨name, rfl, henv⟩ := hpath
  · exact pathExists_of_isCondaInstall h
  · exact pathExists_of_isCondaEnv henv

/-- Whatever belongs to an installation expands to all of its environments. -/
theorem subset_getEnvironments (h : tree.isCondaInstall root = true) {path : PathBuf}
    (hpath : BelongsTo tree root path) :
    tree.getEnvironments root ⊆ tree.getEnvironments path := by
  obtain rfl | ⟨name, rfl, henv⟩ := hpath
  · exact List.Subset.refl _
  · intro other hother
    rw [getEnvironments, mem_sortDedup, if_neg (by simp [isCondaInstall_namedEnv h]), if_pos henv]
    refine List.mem_cons_of_mem _ ?_
    have hbase := baseOf_namedEnv h name
    split
    · rename_i base hsome
      rw [Option.some.inj (hsome.symm.trans hbase)]
      exact hother
    · rename_i hnone
      cases hnone.symm.trans hbase

/-- INTERNAL: the entries that are listed are environments. -/
theorem isCondaEnv_of_mem_condaEnvsIn {directory path : PathBuf}
    (h : path ∈ tree.condaEnvsIn directory) : tree.isCondaEnv path = true := by
  obtain ⟨name, -, -, henv⟩ := mem_condaEnvsIn.mp h
  exact henv

/-- Whatever a directory is, it expands to environments and installations. -/
theorem environment_of_mem_getEnvironments {condaDir path : PathBuf}
    (h : path ∈ tree.getEnvironments condaDir) :
    tree.isCondaEnv path = true ∨ tree.isCondaInstall path = true := by
  induction condaDir using (wellFounded_environmentsCalledFrom tree).induction with
  | _ condaDir ih =>
    rw [getEnvironments, mem_sortDedup] at h
    split at h
    · rename_i hinstall
      obtain rfl | h := List.mem_cons.mp h
      · exact .inr hinstall
      · exact .inl (isCondaEnv_of_mem_condaEnvsIn h)
    · rename_i hinstall
      split at h
      · rename_i henv
        obtain rfl | h := List.mem_cons.mp h
        · exact .inl henv
        · split at h
          · rename_i base hbase
            exact ih base ⟨Bool.eq_false_of_not_eq_true hinstall, henv, hbase⟩ h
          · cases h
      · split at h
        · exact .inl (isCondaEnv_of_mem_condaEnvsIn h)
        · exact .inl (isCondaEnv_of_mem_condaEnvsIn h)

end Expansion

/-! ## Sources -/

variable {host : LocationsHost} {condaExecutable : Option PathBuf}

/-- The nearest environment: the directory itself, or else its parent. -/
def NearestEnvironment (tree : DirectoryTree) (directory condaDir : PathBuf) : Prop :=
  tree.isCondaEnv condaDir = true ∧
    (directory = condaDir ∨ tree.isCondaEnv directory = false ∧ directory.parent = some condaDir)

/-- INTERNAL: that is where the program looks. -/
theorem environmentAt_eq_some {directory condaDir : PathBuf} :
    environmentAt host directory = some condaDir ↔
      NearestEnvironment host.tree directory condaDir := by
  unfold environmentAt NearestEnvironment
  cases henv : host.tree.isCondaEnv directory with
  | true =>
    rw [if_pos rfl]
    constructor
    · rintro ⟨⟩
      exact ⟨henv, .inl rfl⟩
    · rintro ⟨-, rfl | ⟨h, -⟩⟩
      · rfl
      · cases h
  | false =>
    rw [if_neg Bool.false_ne_true, Option.filter_eq_some_iff]
    constructor
    · rintro ⟨hparent, hdir⟩
      exact ⟨hdir, .inr ⟨rfl, hparent⟩⟩
    · rintro ⟨hdir, rfl | ⟨-, hparent⟩⟩
      · rw [henv] at hdir
        cases hdir
      · exact ⟨hparent, hdir⟩

/-- The executable is that of an environment: the file that it leads to lies there, or in a folder
of it; or it leads to the environment itself, or to something in it. -/
inductive ExecutableOf (host : LocationsHost) (exe condaDir : PathBuf) : Prop
  | file {file directory : PathBuf} (hexe : resolveCondaExecutable host exe = some file)
      (hfile : host.tree.isFile file = true) (hparent : file.parent = some directory)
      (h : NearestEnvironment host.tree directory condaDir)
  | place {place : PathBuf} (hexe : resolveCondaExecutable host exe = some place)
      (hfile : host.tree.isFile place = false) (h : NearestEnvironment host.tree place condaDir)

/-- The directory that is found for an executable is one that it belongs to. -/
theorem getCondaDirFromExePath_eq_some {exe condaDir : PathBuf} :
    getCondaDirFromExePath host exe = some condaDir ↔ ExecutableOf host exe condaDir := by
  unfold getCondaDirFromExePath
  constructor
  · intro h
    obtain ⟨place, hexe, h⟩ := Option.bind_eq_some_iff.mp h
    split at h
    · rename_i hfile
      obtain ⟨directory, hparent, h⟩ := Option.bind_eq_some_iff.mp h
      exact .file hexe hfile hparent (environmentAt_eq_some.mp h)
    · rename_i hfile
      exact .place hexe (Bool.eq_false_of_not_eq_true hfile) (environmentAt_eq_some.mp h)
  · rintro (⟨hexe, hfile, hparent, h⟩ | ⟨hexe, hfile, h⟩)
    · rw [hexe, Option.bind_some, if_pos hfile, hparent, Option.bind_some]
      exact environmentAt_eq_some.mpr h
    · rw [hexe, Option.bind_some, hfile, if_neg Bool.false_ne_true]
      exact environmentAt_eq_some.mpr h

/-- A configuration file that is read: one of the search paths, or a file in one of them. -/
inductive ReadsRc (host : LocationsHost) : PathBuf → Prop
  | file {file : PathBuf} (hmem : file ∈ getCondaRcSearchPaths host)
      (hfile : host.tree.isFile file = true) : ReadsRc host file
  | inDirectory {directory : PathBuf} {name : String}
      (hmem : directory ∈ getCondaRcSearchPaths host)
      (hentry : host.tree.HasEntry directory name)
      (hfile : host.tree.isFile (directory.join name) = true)
      (hname : isCondaRcName (directory.join name) = true) : ReadsRc host (directory.join name)

/-- A source names the directory. -/
inductive NamesDirectory (host : LocationsHost) (condaExecutable : Option PathBuf) : PathBuf → Prop
  | listed {home : PathBuf} {contents : String} {line : List Char}
      (hhome : host.userHome = some home)
      (hread : host.readToString ((home.join ".conda").join "environments.txt") = some contents)
      (hline : line ∈ lines contents.toList) (hne : trim line ≠ [])
      (hexists : host.tree.pathExists
        (host.os.normCase (host.pathFrom (String.ofList (trim line)))) = true) :
      NamesDirectory host condaExecutable
        (host.os.normCase (host.pathFrom (String.ofList (trim line))))
  | condarc {file : PathBuf} {contents key value : String} {doc : Yaml} {docs items : List Yaml}
      (hfile : ReadsRc host file) (hread : host.readToString file = some contents)
      (hyaml : host.loadYaml contents = some (doc :: docs))
      (hkey : key ∈ ["envs_dirs", "envs_path"])
      (hitems : doc.get key = .sequence items) (hitem : Yaml.text value ∈ items)
      (hne : trim value.toList ≠ []) :
      NamesDirectory host condaExecutable
        (expandPath host (host.pathFrom (String.ofList (trim value.toList))))
  | place {path : PathBuf}
      (h : path ∈ if host.os.windows then windowsPlaces host else unixPlaces host)
      (hexists : host.tree.pathExists path = true) : NamesDirectory host condaExecutable path
  | ofVariable {name value : String} (hname : name ∈ condaVariables)
      (hvalue : host.var name = some value)
      (hexists : host.tree.pathExists (expandPath host (host.pathFrom value)) = true) :
      NamesDirectory host condaExecutable (expandPath host (host.pathFrom value))
  | condaExe {value : String} {condaDir : PathBuf} (hvalue : host.var "CONDA_EXE" = some value)
      (h : ExecutableOf host (host.pathFrom value) condaDir) :
      NamesDirectory host condaExecutable condaDir
  | onPath {exe condaDir : PathBuf}
      (hexe : findCondaBinary host = some exe ∨ findMambaBinary host = some exe)
      (h : ExecutableOf host exe condaDir) : NamesDirectory host condaExecutable condaDir
  | configured {exe condaDir : PathBuf} (hexe : condaExecutable = some exe)
      (h : ExecutableOf host exe condaDir) : NamesDirectory host condaExecutable condaDir

/-- INTERNAL: the file `environments.txt`. -/
theorem mem_getCondaEnvsFromEnvironmentTxt {path : PathBuf} :
    path ∈ getCondaEnvsFromEnvironmentTxt host ↔ ∃ home contents line,
      host.userHome = some home ∧
      host.readToString ((home.join ".conda").join "environments.txt") = some contents ∧
      line ∈ lines contents.toList ∧ trim line ≠ [] ∧ host.tree.pathExists path = true ∧
      path = host.os.normCase (host.pathFrom (String.ofList (trim line))) := by
  unfold getCondaEnvsFromEnvironmentTxt
  cases hhome : host.userHome with
  | none => simp
  | some home =>
    dsimp only
    cases hread : host.readToString ((home.join ".conda").join "environments.txt") with
    | none => simp [hread]
    | some contents =>
      dsimp only
      simp only [List.mem_filter, List.mem_map, decide_eq_true_eq]
      constructor
      · rintro ⟨⟨_, ⟨⟨line, hline, rfl⟩, hne⟩, rfl⟩, hexists⟩
        exact ⟨home, contents, line, rfl, hread, hline, hne, hexists, rfl⟩
      · rintro ⟨home', contents', line, hhome', hread', hline, hne, hexists, rfl⟩
        obtain rfl := Option.some.inj hhome'
        obtain rfl := Option.some.inj (hread.symm.trans hread')
        exact ⟨⟨_, ⟨⟨line, hline, rfl⟩, hne⟩, rfl⟩, hexists⟩

/-- INTERNAL: an item gives a directory if it is a text that is not blank. -/
theorem envDirOfItem_eq_some {item : Yaml} {path : PathBuf} :
    envDirOfItem host item = some path ↔ ∃ value, item = .text value ∧ trim value.toList ≠ [] ∧
      path = expandPath host (host.pathFrom (String.ofList (trim value.toList))) := by
  unfold envDirOfItem
  cases item with
  | text value =>
    simp only [Yaml.asStr, Option.bind_some, Yaml.text.injEq, exists_eq_left']
    cases trim value.toList with
    | nil => simp
    | cons c name => simp [eq_comm]
  | sequence | mapping | other => simp [Yaml.asStr]

/-- INTERNAL: the directories of one configuration file. -/
theorem mem_parseCondaRcFile {file path : PathBuf} :
    path ∈ parseCondaRcFile host file ↔ ∃ contents doc docs key items value,
      host.readToString file = some contents ∧ host.loadYaml contents = some (doc :: docs) ∧
      key ∈ ["envs_dirs", "envs_path"] ∧ doc.get key = .sequence items ∧
      Yaml.text value ∈ items ∧ trim value.toList ≠ [] ∧
      path = expandPath host (host.pathFrom (String.ofList (trim value.toList))) := by
  unfold parseCondaRcFile parseCondaRcContents
  cases hread : host.readToString file with
  | none => simp
  | some contents =>
    simp only [Option.bind_some]
    cases hyaml : host.loadYaml contents with
    | none => simp [hyaml]
    | some docs =>
      cases docs with
      | nil => simp [hyaml]
      | cons doc docs =>
        simp only [Option.map_some, Option.getD_some, List.mem_flatMap, List.mem_filterMap,
          envDirOfItem_eq_some]
        constructor
        · rintro ⟨key, hkey, item, hmem, value, rfl, hne, rfl⟩
          cases hget : doc.get key with
          | sequence items =>
            rw [hget] at hmem
            exact ⟨contents, doc, docs, key, items, value, rfl, hyaml, hkey, hget, hmem, hne, rfl⟩
          | text | mapping | other =>
            rw [hget] at hmem
            cases hmem
        · rintro ⟨contents', doc', docs', key, items, value, hcontents, hyaml', hkey, hget, hmem,
            hne, rfl⟩
          obtain rfl := Option.some.inj hcontents
          obtain ⟨rfl, rfl⟩ := List.cons_eq_cons.mp (Option.some.inj (hyaml.symm.trans hyaml'))
          exact ⟨key, hkey, .text value, by rw [hget]; exact hmem, value, rfl, hne, rfl⟩

/-- INTERNAL: the configuration files. -/
theorem mem_getCondaRcEnvDirs {path : PathBuf} :
    path ∈ getCondaRcEnvDirs host ↔
      ∃ file, ReadsRc host file ∧ path ∈ parseCondaRcFile host file := by
  unfold getCondaRcEnvDirs
  rw [mem_sortDedup, List.mem_flatMap]
  constructor
  · rintro ⟨rcPath, hmem, h⟩
    split at h
    · exact ⟨rcPath, .file hmem ‹_›, h⟩
    · split at h
      · obtain ⟨file, hfile, h⟩ := List.mem_flatMap.mp h
        obtain ⟨name, hname, rfl⟩ := List.mem_map.mp hfile
        split at h
        · rename_i hread
          obtain ⟨hisFile, hrc⟩ := Bool.and_eq_true_iff.mp hread
          cases hentries : host.tree.readDir rcPath with
          | none =>
            rw [hentries] at hname
            cases hname
          | some entries =>
            rw [hentries] at hname
            exact ⟨_, .inDirectory hmem ⟨entries, hentries, hname⟩ hisFile hrc, h⟩
        · cases h
      · cases h
  · rintro ⟨file, hreads, h⟩
    cases hreads with
    | file hmem hfile =>
      refine ⟨file, hmem, ?_⟩
      rw [if_pos hfile]
      exact h
    | @inDirectory directory name hmem hentry hfile hname =>
      have hdir : host.tree.isDir directory = true := by
        obtain ⟨place, hplace⟩ := Option.isSome_iff_exists.mp (pathExists_of_isFile hfile)
        exact isDir_of_canonicalize_join hplace
      obtain ⟨entries, hentries, hmemName⟩ := hentry
      refine ⟨directory, hmem, ?_⟩
      rw [isFile_of_isDir hdir, if_neg Bool.false_ne_true, if_pos hdir, hentries]
      refine List.mem_flatMap.mpr ⟨_, List.mem_map_of_mem hmemName, ?_⟩
      rw [hfile, hname]
      exact h

/-- INTERNAL: the usual places and the variables. -/
theorem mem_getKnownCondaInstallLocations {path : PathBuf} :
    path ∈ getKnownCondaInstallLocations host ↔
      ((path ∈ if host.os.windows then windowsPlaces host else unixPlaces host) ∨
        (∃ name ∈ condaVariables, ∃ value, host.var name = some value ∧
          path = expandPath host (host.pathFrom value)) ∨
        ∃ value, host.var "CONDA_EXE" = some value ∧
          ExecutableOf host (host.pathFrom value) path) ∧ host.tree.pathExists path = true := by
  unfold getKnownCondaInstallLocations
  simp only [List.mem_filter, mem_sortDedup, List.mem_append, List.mem_flatMap, List.mem_map,
    Option.mem_toList, Option.bind_eq_some_iff, getCondaDirFromExePath_eq_some, or_assoc,
    eq_comm (a := path)]

/-- INTERNAL: the executables on the `PATH`. -/
theorem mem_getCondaDirsFromPathExecutables {path : PathBuf} :
    path ∈ getCondaDirsFromPathExecutables host ↔
      ∃ exe, (findCondaBinary host = some exe ∨ findMambaBinary host = some exe) ∧
        ExecutableOf host exe path := by
  unfold getCondaDirsFromPathExecutables
  simp only [mem_sortDedup, List.mem_append, Option.mem_toList, Option.bind_eq_some_iff,
    getCondaDirFromExePath_eq_some, or_and_right, exists_or]

/-- INTERNAL: an executable names an environment. -/
theorem ExecutableOf.isCondaEnv {exe condaDir : PathBuf} (h : ExecutableOf host exe condaDir) :
    host.tree.isCondaEnv condaDir = true := by
  obtain ⟨-, -, -, h⟩ | ⟨-, -, h⟩ := h
  · exact h.1
  · exact h.1

/-- **The directories of all threads** are those that a source names. -/
theorem mem_condaDirectories {path : PathBuf} :
    path ∈ condaDirectories host condaExecutable ↔ NamesDirectory host condaExecutable path := by
  simp only [condaDirectories, List.mem_append, mem_getCondaEnvsFromEnvironmentTxt,
    mem_getCondaRcEnvDirs, mem_parseCondaRcFile, mem_getKnownCondaInstallLocations,
    mem_getCondaDirsFromPathExecutables, getCondaDirFromExecutable, Option.mem_toList,
    Option.bind_eq_some_iff, getCondaDirFromExePath_eq_some]
  constructor
  · rintro ((((⟨home, contents, line, hhome, hread, hline, hne, hexists, rfl⟩ |
        ⟨file, hfile, contents, doc, docs, key, items, value, hread, hyaml, hkey, hitems, hitem,
          hne, rfl⟩) |
        ⟨hplace | ⟨name, hname, value, hvalue, rfl⟩ | ⟨value, hvalue, h⟩, hexists⟩) |
        ⟨exe, hexe, h⟩) | ⟨exe, hexe, h⟩)
    · exact .listed hhome hread hline hne hexists
    · exact .condarc hfile hread hyaml hkey hitems hitem hne
    · exact .place hplace hexists
    · exact .ofVariable hname hvalue hexists
    · exact .condaExe hvalue h
    · exact .onPath hexe h
    · exact .configured hexe h
  · intro h
    cases h with
    | listed hhome hread hline hne hexists =>
      exact .inl (.inl (.inl (.inl ⟨_, _, _, hhome, hread, hline, hne, hexists, rfl⟩)))
    | condarc hfile hread hyaml hkey hitems hitem hne =>
      exact .inl (.inl (.inl (.inr ⟨_, hfile, _, _, _, _, _, _, hread, hyaml, hkey, hitems, hitem,
        hne, rfl⟩)))
    | place hplace hexists => exact .inl (.inl (.inr ⟨.inl hplace, hexists⟩))
    | ofVariable hname hvalue hexists =>
      exact .inl (.inl (.inr ⟨.inr (.inl ⟨_, hname, _, hvalue, rfl⟩), hexists⟩))
    | condaExe hvalue h =>
      exact .inl (.inl (.inr ⟨.inr (.inr ⟨_, hvalue, h⟩),
        pathExists_of_isCondaEnv h.isCondaEnv⟩))
    | onPath hexe h => exact .inl (.inr ⟨_, hexe, h⟩)
    | configured hexe h => exact .inr ⟨_, hexe, h⟩

/-- INTERNAL: a path is found if it is an expansion of a directory that a source names. -/
theorem mem_getCondaEnvironmentPaths {path : PathBuf} :
    path ∈ getCondaEnvironmentPaths host condaExecutable ↔
      ∃ condaDir, NamesDirectory host condaExecutable condaDir ∧
        host.tree.pathExists (host.os.normCase condaDir) = true ∧
        path ∈ host.tree.getEnvironments (host.os.normCase condaDir) := by
  unfold getCondaEnvironmentPaths
  simp only [mem_sortDedup, List.mem_flatMap, List.mem_filter, List.mem_map, mem_condaDirectories]
  constructor
  · rintro ⟨_, ⟨⟨condaDir, hnames, rfl⟩, hexists⟩, h⟩
    exact ⟨condaDir, hnames, hexists, h⟩
  · rintro ⟨condaDir, hnames, hexists, h⟩
    exact ⟨_, ⟨⟨condaDir, hnames, rfl⟩, hexists⟩, h⟩

/-- **One source is enough.** The paths that are found are in order and without repeats; each is
an environment or an installation, and belongs to what a directory expands to that a source names.
And if a source names an installation, or any environment of it, then the installation and all of
its environments are found. -/
theorem conda_environment_paths (host : LocationsHost) (condaExecutable : Option PathBuf) :
    (getCondaEnvironmentPaths host condaExecutable).Pairwise (· < ·) ∧
    (∀ path ∈ getCondaEnvironmentPaths host condaExecutable,
      (host.tree.isCondaEnv path = true ∨ host.tree.isCondaInstall path = true) ∧
      ∃ condaDir, NamesDirectory host condaExecutable condaDir ∧
        path ∈ host.tree.getEnvironments (host.os.normCase condaDir)) ∧
    ∀ condaDir root, NamesDirectory host condaExecutable condaDir →
      host.tree.isCondaInstall root = true →
      BelongsTo host.tree root (host.os.normCase condaDir) →
      root ∈ getCondaEnvironmentPaths host condaExecutable ∧
      ∀ name, host.tree.HasEntry (root.join "envs") name →
        host.tree.isCondaEnv (namedEnv root name) = true →
        namedEnv root name ∈ getCondaEnvironmentPaths host condaExecutable := by
  refine ⟨pairwise_sortDedup _, fun path hpath => ?_, fun condaDir root hnames hroot hbelongs => ?_⟩
  · obtain ⟨condaDir, hnames, -, h⟩ := mem_getCondaEnvironmentPaths.mp hpath
    exact ⟨environment_of_mem_getEnvironments h, condaDir, hnames, h⟩
  · have hfound : ∀ path ∈ host.tree.getEnvironments root,
        path ∈ getCondaEnvironmentPaths host condaExecutable := fun path hpath =>
      mem_getCondaEnvironmentPaths.mpr ⟨condaDir, hnames,
        pathExists_of_belongsTo hroot hbelongs, subset_getEnvironments hroot hbelongs hpath⟩
    refine ⟨hfound _ ((mem_getEnvironments hroot).mpr (.inl rfl)), fun name hentry henv => ?_⟩
    exact hfound _ ((mem_getEnvironments hroot).mpr (.inr ⟨name, hentry, rfl, henv⟩))

/-! ## An installation with two environments -/

/-- The installation `/conda`, of which the variable `CONDA_PREFIX` names an environment. -/
def prefixHost : LocationsHost where
  os := unixOs
  tree := plainTree [rootedPath [], rootedPath ["conda"], rootedPath ["conda", "conda-meta"],
    rootedPath ["conda", "envs"], rootedPath ["conda", "envs", "a"],
    rootedPath ["conda", "envs", "a", "conda-meta"], rootedPath ["conda", "envs", "b"],
    rootedPath ["conda", "envs", "b", "conda-meta"]] [] (by decide)
  pathFrom := unixPath
  isSymlink _ := false
  readToString _ := none
  macos := false
  userHome := none
  var name := if name = "CONDA_PREFIX" then some "/conda/envs/a" else none
  searchPath := none
  loadYaml _ := none

/-- INTERNAL: the variable names the environment. -/
theorem expandPath_prefixHost :
    expandPath prefixHost (prefixHost.pathFrom "/conda/envs/a") =
      rootedPath ["conda", "envs", "a"] := by
  decide

/-- The other environment is found. -/
theorem conda_environment_paths_sibling :
    namedEnv (rootedPath ["conda"]) "b" ∈ getCondaEnvironmentPaths prefixHost none := by
  have hnames : NamesDirectory prefixHost none (rootedPath ["conda", "envs", "a"]) := by
    rw [← expandPath_prefixHost]
    refine .ofVariable (show "CONDA_PREFIX" ∈ condaVariables by decide) rfl ?_
    rw [expandPath_prefixHost]
    decide
  exact ((conda_environment_paths prefixHost none).2.2 _ (rootedPath ["conda"]) hnames
    (by decide) (.inr ⟨"a", rfl, by decide⟩)).2 "b" ⟨["a", "b"], by decide, by decide⟩ (by decide)

end REnvTools.Analysis
