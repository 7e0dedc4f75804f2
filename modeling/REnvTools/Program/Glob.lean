import REnvTools.Program.Configuration
import REnvTools.Program.Text
import Mathlib.Data.List.Count

/-!
# Path patterns

Braces are expanded by the program, the other metacharacters by the `glob` crate. What a
pattern stands for is asked of the file system every time it is expanded, and a path that
is not a pattern stands for itself.

SRC: crates/ret-fs/src/glob.rs:1-191
-/

set_option autoImplicit false

namespace REnvTools.Program

/-! ## Braces -/

/-- `GLOB_METACHARACTERS`. -/
def globMetacharacters : List Char := ['*', '?', '[', ']']

/-- `str::contains` of the metacharacters. -/
def containsMetacharacter (s : List Char) : Bool := s.any globMetacharacters.contains

/-- The first `{` of a text, the first `}` after it, and what is before, between and after
them. -/
def splitBraces (s : List Char) : Option (List Char × List Char × List Char) :=
  match splitOnce (Char.ofNat 123) s with
  | none => none
  | some (before, afterOpen) =>
    match splitOnce (Char.ofNat 125) afterOpen with
    | none => none
    | some (alternatives, suffix) => some (before, alternatives, suffix)

/-- INTERNAL: a text is its parts and the separator. -/
theorem eq_of_splitOnce {separator : Char} {s before after : List Char}
    (h : splitOnce separator s = some (before, after)) : s = before ++ separator :: after := by
  induction s generalizing before with
  | nil => cases h
  | cons c s ih =>
    unfold splitOnce at h
    split at h
    · rename_i hc
      cases h
      rw [hc, List.nil_append]
    · obtain ⟨parts, hparts, hpair⟩ := Option.map_eq_some_iff.mp h
      cases hpair
      rw [ih hparts, List.cons_append]

/-- INTERNAL: the separator is the first one. -/
theorem not_mem_of_splitOnce {separator : Char} {s before after : List Char}
    (h : splitOnce separator s = some (before, after)) : separator ∉ before := by
  induction s generalizing before with
  | nil => cases h
  | cons c s ih =>
    unfold splitOnce at h
    split at h
    · cases h
      exact List.not_mem_nil
    · rename_i hc
      obtain ⟨parts, hparts, hpair⟩ := Option.map_eq_some_iff.mp h
      cases hpair
      rw [List.mem_cons, not_or]
      exact ⟨Ne.symm hc, ih hparts⟩

/-- A text is its parts and the braces. -/
theorem eq_of_splitBraces {s before alternatives suffix : List Char}
    (h : splitBraces s = some (before, alternatives, suffix)) :
    s = before ++ Char.ofNat 123 :: (alternatives ++ Char.ofNat 125 :: suffix) ∧
      Char.ofNat 123 ∉ before ∧ Char.ofNat 125 ∉ alternatives := by
  unfold splitBraces at h
  split at h
  · cases h
  · rename_i hopen
    split at h
    · cases h
    · rename_i hclose
      cases h
      rw [eq_of_splitOnce hopen, eq_of_splitOnce hclose]
      exact ⟨rfl, not_mem_of_splitOnce hopen, not_mem_of_splitOnce hclose⟩

/-- `has_brace_pattern`. -/
def hasBracePattern (remaining : List Char) : Bool :=
  match _h : splitBraces remaining with
  | none => false
  | some (_, alternatives, suffix) =>
    if ',' ∈ alternatives then true else hasBracePattern suffix
termination_by remaining.length
decreasing_by
  have hlength := congrArg List.length (eq_of_splitBraces _h).1
  simp only [List.length_append, List.length_cons] at hlength
  omega

/-- `is_glob_pattern`. -/
def isGlobPattern (path : String) : Bool :=
  containsMetacharacter path.toList || hasBracePattern path.toList

/-- `MAX_BRACE_EXPANSIONS`. -/
def maxBraceExpansions : ℕ := 1024

/-- INTERNAL: what a list is split into consists of its elements. -/
theorem subset_of_mem_splitOn {s piece : List Char} {separator : Char}
    (h : piece ∈ s.splitOn separator) : piece ⊆ s := by
  have hmem : ∀ (pieces : List (List Char)) (piece : List Char), piece ∈ pieces →
      piece ⊆ [separator].intercalate pieces := by
    intro pieces
    induction pieces with
    | nil => simp
    | cons first pieces ih =>
      intro piece hpiece
      cases pieces with
      | nil =>
        rw [List.intercalate_singleton, List.mem_singleton.mp hpiece]
        exact List.Subset.refl first
      | cons second pieces =>
        rw [List.intercalate_cons_cons]
        obtain rfl | hrest := List.mem_cons.mp hpiece
        · exact List.Subset.trans (List.subset_append_left _ _) (List.subset_append_left _ _)
        · exact List.Subset.trans (ih piece hrest) (List.subset_append_right _ _)
  have hsubset := hmem _ piece h
  rwa [List.intercalate_splitOn] at hsubset

/-- INTERNAL: a text in which an alternative took the place of its group has one `}` less. -/
theorem count_lt_of_splitBraces {s before alternatives suffix alt : List Char}
    (h : splitBraces s = some (before, alternatives, suffix))
    (halt : alt ∈ alternatives.splitOn ',') :
    (before ++ alt ++ suffix).count (Char.ofNat 125) < s.count (Char.ofNat 125) := by
  obtain ⟨heq, -, halternatives⟩ := eq_of_splitBraces h
  have halt : alt.count (Char.ofNat 125) = 0 :=
    List.count_eq_zero.mpr fun hmem => halternatives (subset_of_mem_splitOn halt hmem)
  have hcount := congrArg (List.count (Char.ofNat 125)) heq
  simp only [List.count_append, List.count_cons, halt] at hcount ⊢
  simp at hcount
  omega

/-- `expand_braces_inner`: the results with those of a pattern added. -/
def expandBracesInner (pattern : List Char) (results : List String) : List String :=
  if maxBraceExpansions ≤ results.length then results
  else
    match _h : splitBraces pattern with
    | none => results ++ [String.ofList pattern]
    | some (before, alternatives, suffix) =>
      (alternatives.splitOn ',').attach.foldl (fun results alt =>
        if maxBraceExpansions ≤ results.length then results
        else expandBracesInner (before ++ alt.1 ++ suffix) results) results
termination_by pattern.count (Char.ofNat 125)
decreasing_by exact count_lt_of_splitBraces _h alt.2

/-- `expand_braces`. -/
def expandBraces (pattern : String) : List String := expandBracesInner pattern.toList []

/-! ## The file system -/

/-- What the expansion of patterns asks: `PathBuf::from` and `to_string_lossy` of the host,
`is_dir` and `is_file`, and the `glob` crate, which rejects a pattern or gives its matches,
each readable or not. -/
structure FileSystem where
  pathFrom : String → PathBuf
  text : PathBuf → String
  glob : String → Option (List (Option PathBuf))
  isDir : PathBuf → Bool
  isFile : PathBuf → Bool

variable (fs : FileSystem)

/-- What one pattern without braces stands for. -/
def expandVariant (pat : String) : List PathBuf :=
  if containsMetacharacter pat.toList then ((fs.glob pat).getD []).filterMap id
  else [fs.pathFrom pat]

/-- `expand_glob_pattern`. -/
def expandGlobPattern (pattern : String) : List PathBuf :=
  if isGlobPattern pattern then (expandBraces pattern).flatMap (expandVariant fs)
  else [fs.pathFrom pattern]

/-- `expand_glob_patterns`. -/
def expandGlobPatterns (paths : List PathBuf) : List PathBuf :=
  paths.flatMap fun path => expandGlobPattern fs (fs.text path)

/-! ## The configuration of a refresh -/

/-- `SearchScope`. -/
inductive SearchScope
  | global (kind : RInstallationKind)
  | searchPaths
  deriving DecidableEq

/-- `build_refresh_config`.
SRC: crates/ret/src/jsonrpc.rs:889-919 -/
def buildRefreshConfig (refreshOptions : RefreshOptions) (config : Configuration) :
    Configuration × Option SearchScope :=
  match refreshOptions.searchPaths with
  | some searchPaths =>
    let expanded := expandGlobPatterns fs searchPaths
    ({ config with
        workspaceDirectories := none
        environmentDirectories := none
        searchDirectories := some (expanded.filter fs.isDir)
        executables := some (expanded.filter fs.isFile) },
      some .searchPaths)
  | none => (config, refreshOptions.searchKind.map .global)

end REnvTools.Program
