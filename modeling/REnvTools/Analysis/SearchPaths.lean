import REnvTools.Program.DirectoryTree
import REnvTools.Program.Glob

/-!
# The search paths of a refresh

The patterns of a request are expanded when it is parsed, and the paths this gives are read
as patterns once more when the configuration of the refresh is built. The second reading
changes nothing for a path whose text is no pattern and gives the path back; for the others it
has to find what was found before.
-/

set_option autoImplicit false

namespace REnvTools.Analysis

open REnvTools.Lib REnvTools.Program

variable (os : Os) (fs : FileSystem)

/-- The paths that patterns stand for: each pattern expanded once, and the paths
normalised. -/
def expandedPaths (patterns : List PathBuf) : List PathBuf :=
  (expandGlobPatterns fs patterns).map os.normCase

/-- INTERNAL: the paths after parsing are the expanded ones. -/
theorem searchPaths_parseRefreshOptions (kind : Option RInstallationKind)
    (patterns : List PathBuf) :
    (parseRefreshOptions os (expandGlobPatterns fs) (some ⟨kind, some patterns⟩)).searchPaths =
      some (sortDedup (expandedPaths os fs patterns)) := by
  rfl

/-- The directories and the files to be searched are those among the expanded paths. -/
def SearchesExpanded (patterns : List PathBuf) (config : Configuration) : Prop :=
  ∃ directories files, config.searchDirectories = some directories ∧
    config.executables = some files ∧
    (∀ path, path ∈ directories ↔ path ∈ expandedPaths os fs patterns ∧ fs.isDir path = true) ∧
    ∀ path, path ∈ files ↔ path ∈ expandedPaths os fs patterns ∧ fs.isFile path = true

/-- The path is there, as a directory or a regular file. -/
def IsThere (path : PathBuf) : Prop := fs.isDir path = true ∨ fs.isFile path = true

/-- The path stands for itself when it is read again: its text does not look like a pattern, and
gives the path back, which that of a name that is not UTF-8 does not. -/
def IsLiteral (path : PathBuf) : Prop :=
  isGlobPattern (fs.text path) = false ∧ fs.pathFrom (fs.text path) = path

/-- Read as patterns once more, the expanded paths that are not literal stand for expanded paths
only, and for those among them that are there. -/
structure RereadUnchanged (patterns : List PathBuf) : Prop where
  sound : ∀ path ∈ expandedPaths os fs patterns, ¬IsLiteral fs path →
    ∀ found ∈ expandGlobPattern fs (fs.text path), IsThere fs found →
      found ∈ expandedPaths os fs patterns
  complete : ∀ path ∈ expandedPaths os fs patterns, ¬IsLiteral fs path → IsThere fs path →
    ∃ other ∈ expandedPaths os fs patterns, ¬IsLiteral fs other ∧
      path ∈ expandGlobPattern fs (fs.text other)

variable {os fs}

/-- INTERNAL: what the second expansion gives. -/
theorem mem_expandGlobPatterns_sortDedup {patterns : List PathBuf} {path : PathBuf} :
    path ∈ expandGlobPatterns fs (sortDedup (expandedPaths os fs patterns)) ↔
      ∃ other ∈ expandedPaths os fs patterns, path ∈ expandGlobPattern fs (fs.text other) := by
  simp only [expandGlobPatterns, List.mem_flatMap, mem_sortDedup]

/-- INTERNAL: a literal path stands for itself. -/
theorem expandGlobPattern_of_isLiteral {path : PathBuf} (h : IsLiteral fs path) :
    expandGlobPattern fs (fs.text path) = [path] := by
  rw [expandGlobPattern, h.1, h.2]
  rfl

/-- INTERNAL: the second expansion finds what was expanded, as far as it is there. -/
theorem reread_iff {patterns : List PathBuf} :
    (∀ path, IsThere fs path →
      (path ∈ expandGlobPatterns fs (sortDedup (expandedPaths os fs patterns)) ↔
        path ∈ expandedPaths os fs patterns)) ↔
      RereadUnchanged os fs patterns := by
  constructor
  · intro h
    constructor
    · intro path hpath _ found hfound hexists
      apply (h found hexists).mp
      exact mem_expandGlobPatterns_sortDedup.mpr ⟨path, hpath, hfound⟩
    · intro path hpath hpattern hexists
      obtain ⟨other, hother, hfound⟩ :=
        mem_expandGlobPatterns_sortDedup.mp ((h path hexists).mpr hpath)
      refine ⟨other, hother, fun hliteral => ?_, hfound⟩
      -- a literal path only stands for itself
      rw [expandGlobPattern_of_isLiteral hliteral] at hfound
      rw [List.mem_singleton.mp hfound] at hpattern
      exact hpattern hliteral
  · intro h path hexists
    rw [mem_expandGlobPatterns_sortDedup]
    constructor
    · rintro ⟨other, hother, hfound⟩
      by_cases hliteral : IsLiteral fs other
      · rw [expandGlobPattern_of_isLiteral hliteral] at hfound
        rw [List.mem_singleton.mp hfound]
        exact hother
      · exact h.sound other hother hliteral path hfound hexists
    · intro hpath
      by_cases hliteral : IsLiteral fs path
      · refine ⟨path, hpath, ?_⟩
        rw [expandGlobPattern_of_isLiteral hliteral]
        exact List.mem_singleton_self path
      · obtain ⟨other, hother, -, hfound⟩ := h.complete path hpath hliteral hexists
        exact ⟨other, hother, hfound⟩

/-- INTERNAL: nothing goes wrong if every expanded path is literal. -/
theorem rereadUnchanged_of_literal {patterns : List PathBuf}
    (h : ∀ path ∈ expandedPaths os fs patterns, IsLiteral fs path) :
    RereadUnchanged os fs patterns where
  sound path hpath hnot := absurd (h path hpath) hnot
  complete path hpath hnot := absurd (h path hpath) hnot

/-- **What a refresh with search paths searches.** It is the directories and files among the
expanded paths, exactly if reading the expanded paths as patterns once more finds nothing
new and misses nothing, which is so if all of them are literal. -/
theorem searchesExpanded_buildRefreshConfig_iff (os : Os) (fs : FileSystem)
    (kind : Option RInstallationKind) (patterns : List PathBuf) (config : Configuration) :
    (SearchesExpanded os fs patterns (buildRefreshConfig fs
      (parseRefreshOptions os (expandGlobPatterns fs) (some ⟨kind, some patterns⟩)) config).1 ↔
      RereadUnchanged os fs patterns) ∧
    ((∀ path ∈ expandedPaths os fs patterns, IsLiteral fs path) →
      RereadUnchanged os fs patterns) := by
  refine ⟨?_, rereadUnchanged_of_literal⟩
  rw [← reread_iff]
  unfold buildRefreshConfig SearchesExpanded
  rw [searchPaths_parseRefreshOptions]
  constructor
  · rintro ⟨directories, files, hdirectories, hfiles, hmem_directories, hmem_files⟩
    cases hdirectories
    cases hfiles
    rintro path (hdir | hfile)
    · simpa [hdir] using hmem_directories path
    · simpa [hfile] using hmem_files path
  · intro h
    refine ⟨_, _, rfl, rfl, fun path => ?_, fun path => ?_⟩
    · rw [List.mem_filter, and_congr_left_iff]
      exact fun hdir => h path (.inl hdir)
    · rw [List.mem_filter, and_congr_left_iff]
      exact fun hfile => h path (.inr hfile)

/-! ## A directory with a bracket in its name -/

/-- INTERNAL: a pattern without braces is its own expansion. -/
theorem expandBraces_of_splitBraces {pattern : String} (h : splitBraces pattern.toList = none) :
    expandBraces pattern = [pattern] := by
  unfold expandBraces expandBracesInner
  rw [if_neg (by decide)]
  split
  · rw [String.ofList_toList, List.nil_append]
  · rename_i hsome
    rw [h] at hsome
    cases hsome

/-- `PathBuf::from` for an absolute path in its normal spelling. -/
def absolutePath (text : String) : PathBuf :=
  ⟨.rootDir :: (text.toList.drop 1 |>.splitOn '/').map fun name => .normal (String.ofList name)⟩

/-- A file system whose directory `/w` holds one directory, with the name `a[1]`. -/
def bracketFileSystem : FileSystem where
  pathFrom := absolutePath
  text path := PathBuf.render "/" path.components
  glob pattern := some (if pattern = "/w/*" then [some (absolutePath "/w/a[1]")] else [])
  isDir path := [⟨[.rootDir]⟩, absolutePath "/w", absolutePath "/w/a[1]"].contains path
  isFile _ := false

/-- INTERNAL: the pattern `/w/*` stands for the directory. -/
theorem expandedPaths_bracket :
    expandedPaths unixOs bracketFileSystem [absolutePath "/w/*"] = [absolutePath "/w/a[1]"] := by
  have hpattern : isGlobPattern "/w/*" = true := by
    unfold isGlobPattern
    rw [Bool.or_eq_true]
    exact .inl (by decide)
  have htext : bracketFileSystem.text (absolutePath "/w/*") = "/w/*" := by decide
  have hbraces := expandBraces_of_splitBraces (show splitBraces "/w/*".toList = none by decide)
  unfold expandedPaths expandGlobPatterns expandGlobPattern
  rw [List.flatMap_singleton, htext, if_pos hpattern, hbraces]
  decide

/-- INTERNAL: the directory, read as a pattern, stands for nothing that is there. -/
theorem expandGlobPattern_bracket :
    expandGlobPattern bracketFileSystem
      (bracketFileSystem.text (absolutePath "/w/a[1]")) = [] := by
  have hpattern : isGlobPattern "/w/a[1]" = true := by
    unfold isGlobPattern
    rw [Bool.or_eq_true]
    exact .inl (by decide)
  have htext : bracketFileSystem.text (absolutePath "/w/a[1]") = "/w/a[1]" := by decide
  have hbraces := expandBraces_of_splitBraces (show splitBraces "/w/a[1]".toList = none by decide)
  unfold expandGlobPattern
  rw [htext, if_pos hpattern, hbraces]
  decide

/-- The directory that `/w/*` stands for is not searched. -/
theorem not_searchesExpanded_bracket :
    ¬ SearchesExpanded unixOs bracketFileSystem [absolutePath "/w/*"]
      (buildRefreshConfig bracketFileSystem
        (parseRefreshOptions unixOs (expandGlobPatterns bracketFileSystem)
          (some ⟨none, some [absolutePath "/w/*"]⟩)) Configuration.default).1 := by
  rintro ⟨directories, files, hdirectories, -, hmem, -⟩
  have hsearched : absolutePath "/w/a[1]" ∈ directories := by
    apply (hmem _).mpr
    rw [expandedPaths_bracket]
    decide
  have hoptions := searchPaths_parseRefreshOptions unixOs bracketFileSystem none
    [absolutePath "/w/*"]
  have hreread : expandGlobPatterns bracketFileSystem [absolutePath "/w/a[1]"] = [] := by
    unfold expandGlobPatterns
    rw [List.flatMap_singleton, expandGlobPattern_bracket]
  unfold buildRefreshConfig at hdirectories
  rw [hoptions, expandedPaths_bracket, sortDedup_eq_self (by simp)] at hdirectories
  simp only [hreread, List.filter_nil, Option.some.injEq] at hdirectories
  rw [← hdirectories] at hsearched
  cases hsearched

end REnvTools.Analysis
