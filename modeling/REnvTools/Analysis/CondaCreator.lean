import Mathlib.Tactic.IntervalCases
import REnvTools.Analysis.LauncherHome
import REnvTools.Program.CondaManagers

/-!
# Which installation created an environment

The positions that `get_conda_dir_from_cmd` takes a creation line apart at are in order on every
line that `get_conda_creation_line_from_history` returns, so the code never panics
(`getCondaDirFromCmd_ok`). `CreationLine` spells the command of such a line; the executable is
read back from it, and from the executable the installation.
-/

set_option autoImplicit false

namespace REnvTools.Analysis

open Lib Program

/-! ## Positions -/

/-- INTERNAL: what is found is a part of the text. -/
theorem exists_of_findText {pattern text : List Char} {position : ℕ}
    (h : findText pattern text = some position) :
    ∃ before after, text = before ++ pattern ++ after ∧ before.length = position := by
  obtain ⟨parts, hparts, hposition⟩ := Option.map_eq_some_iff.mp h
  exact ⟨parts.1, parts.2, eq_of_cutAt hparts, hposition⟩

/-- INTERNAL: the command begins the line. -/
theorem findText_command {lower : List Char} (h : "# cmd:".toList <+: lower) :
    findText "# cmd:".toList lower = some 0 := by
  obtain ⟨rest, rfl⟩ := h
  unfold findText
  rw [cutAt_self (by decide)]
  rfl

/-- INTERNAL: the verb stands behind the mark of the command. -/
theorem le_of_findText_create {lower : List Char} {stop : ℕ} (hcommand : "# cmd:".toList <+: lower)
    (hstop : findText " create -".toList lower = some stop) : 6 ≤ stop := by
  obtain ⟨rest, rfl⟩ := hcommand
  obtain ⟨before, after, htext, rfl⟩ := exists_of_findText hstop
  by_contra hlt
  have hfirst := congrArg (·[before.length]?) htext
  have hthird := congrArg (·[before.length + 2]?) htext
  simp only [List.append_assoc, List.getElem?_append_right (Nat.le_refl _),
    List.getElem?_append_right (Nat.le_add_right _ 2), Nat.sub_self, Nat.add_sub_cancel_left]
    at hfirst hthird
  have hlength : before.length < 6 := Nat.lt_of_not_le hlt
  generalize before.length = position at hfirst hthird hlength
  interval_cases position <;> simp at hfirst hthird

/-- INTERNAL: a creation line begins with the mark and has the verb. -/
theorem isCreationLine_iff {line : List Char} :
    isCreationLine line = true ↔ "# cmd:".toList <+: line.map Char.toLower ∧
      " create -".toList <:+: line.map Char.toLower := by
  rw [isCreationLine, Bool.and_eq_true, List.isPrefixOf_iff_prefix, decide_eq_true_eq]

variable {files : CondaFiles}

/-- **The positions are in order** on every line that is taken for a creation line. -/
theorem getCondaDirFromCmd_ok (files : CondaFiles) {line : List Char}
    (h : isCreationLine line = true) :
    ∃ condaDir, getCondaDirFromCmd files line = .ok condaDir := by
  obtain ⟨hcommand, hcreate⟩ := isCreationLine_iff.mp h
  unfold getCondaDirFromCmd
  dsimp only
  rw [findText_command hcommand]
  cases hstop : findText " create -".toList (line.map Char.toLower) with
  | none =>
    have hnone := Option.map_eq_none_iff.mp hstop
    exact absurd hcreate (cutAt_eq_none_iff.mp hnone)
  | some stop =>
    obtain ⟨before, after, htext, rfl⟩ := exists_of_findText hstop
    have hle := le_of_findText_create hcommand hstop
    have hlength : before.length ≤ line.length := by
      have hwhole := congrArg List.length htext
      simp only [List.length_append, List.length_map] at hwhole
      omega
    dsimp only
    rw [slice, if_pos ⟨(Nat.zero_add _).trans_le hle, hlength⟩]
    exact ⟨_, rfl⟩

/-! ## Creation lines -/

/-- The command of a creation line: the mark, the executable between white space, the verb, and
what follows it. -/
structure CreationLine where
  mark : List Char
  gap : List Char
  executable : List Char
  gap' : List Char
  verb : List Char
  arguments : List Char
  mark_eq : mark.map Char.toLower = "# cmd:".toList
  gap_space : ∀ c ∈ gap ++ gap', isWhitespace c = true
  trimmed : trim executable = executable
  verb_eq : verb.map Char.toLower = " create -".toList
  first : ¬" create -".toList <:+: (mark ++ (gap ++ executable ++ gap')).map Char.toLower

namespace CreationLine

variable (line : CreationLine)

/-- The line. -/
def text : List Char :=
  line.mark ++ (line.gap ++ line.executable ++ line.gap') ++ line.verb ++ line.arguments

/-- INTERNAL: the line in lower case. -/
theorem map_toLower_text : line.text.map Char.toLower =
    (line.mark ++ (line.gap ++ line.executable ++ line.gap')).map Char.toLower ++
      " create -".toList ++ line.arguments.map Char.toLower := by
  rw [text, List.map_append, List.map_append, line.verb_eq]

/-- INTERNAL: the line is a creation line. -/
theorem isCreationLine_text : isCreationLine line.text = true := by
  rw [isCreationLine_iff, line.map_toLower_text]
  refine ⟨?_, ⟨_, _, rfl⟩⟩
  rw [List.map_append, line.mark_eq, List.append_assoc, List.append_assoc]
  exact List.prefix_append _ _

/-- INTERNAL: the mark has six characters. -/
theorem length_mark : line.mark.length = "# cmd:".length := by
  have hlength := congrArg List.length line.mark_eq
  rwa [List.length_map] at hlength

/-- The executable is read back. -/
theorem getCondaDirFromCmd_text (files : CondaFiles) :
    getCondaDirFromCmd files line.text =
      .ok (condaDirOfExecutable files (files.pathFrom (String.ofList line.executable))) := by
  have hcommand := (isCreationLine_iff.mp line.isCreationLine_text).1
  have hcreate : findText " create -".toList (line.text.map Char.toLower) =
      some (line.mark ++ (line.gap ++ line.executable ++ line.gap')).length := by
    rw [findText, line.map_toLower_text, cutAt_append (by decide) (by decide) line.first,
      Option.map_some, List.length_map]
  obtain ⟨hgap, hgap'⟩ := List.forall_mem_append.mp line.gap_space
  have hslice : slice line.text (0 + "# cmd:".length)
      (line.mark ++ (line.gap ++ line.executable ++ line.gap')).length =
        .ok (line.gap ++ line.executable ++ line.gap') := by
    have htake : line.text.take (line.mark ++ (line.gap ++ line.executable ++ line.gap')).length =
        line.mark ++ (line.gap ++ line.executable ++ line.gap') := by
      rw [text, List.append_assoc _ line.verb, List.take_left]
    rw [slice, if_pos, htake, Nat.zero_add, ← line.length_mark, List.drop_left]
    rw [Nat.zero_add, ← line.length_mark, text]
    simp only [List.length_append]
    omega
  unfold getCondaDirFromCmd
  dsimp only
  rw [findText_command hcommand, hcreate]
  dsimp only
  rw [hslice]
  show Except.ok (condaDirOfExecutable files (files.pathFrom (String.ofList (trim
    (line.gap ++ line.executable ++ line.gap'))))) = _
  rw [trim_append_append hgap hgap', line.trimmed]

end CreationLine

/-! ## The installation -/

/-- An executable of the installation: in one of its folders, or in the installation itself. -/
inductive RunsFrom (root : PathBuf) : PathBuf → Prop
  | folder {folder : String} (name : String) (h : toAsciiLowercase folder ∈ executableFolders) :
      RunsFrom root ((root.join folder).join name)
  | top {last : String} (name : String) (hlast : root.fileName = some last)
      (h : toAsciiLowercase last ∉ executableFolders) : RunsFrom root (root.join name)

/-- The directory that is derived from an executable. -/
theorem condaDirOfExecutable_of_runsFrom {root executable : PathBuf}
    (h : RunsFrom root ((resolveSymlink files executable).getD executable)) :
    condaDirOfExecutable files executable = some (files.os.normCase root) := by
  unfold condaDirOfExecutable
  generalize (resolveSymlink files executable).getD executable = resolved at h
  cases h with
  | folder name h =>
    dsimp only
    rw [parent_join, Option.bind_some, fileName_join, Option.bind_some, if_pos h, parent_join,
      Option.map_some]
  | top name hlast h =>
    dsimp only
    rw [parent_join, Option.bind_some, hlast, Option.bind_some, if_neg h]

/-- INTERNAL: what is found at a directory is an installation. -/
theorem isCondaInstall_of_installAt {condaDir root : PathBuf}
    (h : installAt files condaDir = some root) : files.tree.isCondaInstall root = true := by
  unfold installAt at h
  split at h
  · cases h
    assumption
  · exact (Option.filter_eq_some_iff.mp h).2

/-- INTERNAL: no history makes the code panic, and what it returns is an installation. -/
theorem exists_created (files : CondaFiles) (envPath : PathBuf) :
    ∃ created, getCondaInstallationUsedToCreateCondaEnv files envPath = .ok created ∧
      ∀ root ∈ created, files.tree.isCondaInstall root = true := by
  have hitself : ∀ root ∈ (if files.tree.isCondaInstall envPath then some envPath else none),
      files.tree.isCondaInstall root = true := by
    intro root hroot
    split at hroot
    · cases hroot
      assumption
    · cases hroot
  unfold getCondaInstallationUsedToCreateCondaEnv
  dsimp only
  cases hparent : envPath.ancestors[2]?.filter files.tree.isCondaInstall with
  | some parent =>
    refine ⟨some parent, rfl, ?_⟩
    rintro root ⟨⟩
    exact (Option.filter_eq_some_iff.mp hparent).2
  | none =>
    dsimp only
    cases hline : getCondaCreationLineFromHistory files.readToString envPath with
    | none => exact ⟨_, rfl, hitself⟩
    | some line =>
      obtain ⟨contents, -, hfound⟩ := Option.bind_eq_some_iff.mp hline
      obtain ⟨condaDir, hdir⟩ := getCondaDirFromCmd_ok files (List.find?_some hfound)
      dsimp only
      rw [hdir]
      refine ⟨(condaDir.bind (installAt files)).or _, rfl, fun root hroot => ?_⟩
      obtain hroot | ⟨-, hroot⟩ := Option.or_eq_some_iff.mp hroot
      · obtain ⟨dir, -, hinstall⟩ := Option.bind_eq_some_iff.mp hroot
        exact isCondaInstall_of_installAt hinstall
      · exact hitself root hroot

/-- INTERNAL: the first creation line is found. -/
theorem creationLine_of_lines {envPath : PathBuf} {contents : String}
    {before after : List (List Char)} {line raw : List Char}
    (hcontents : files.readToString ((envPath.join "conda-meta").join "history") = some contents)
    (hlines : lines contents.toList = before ++ raw :: after) (hraw : trim raw = line)
    (hline : isCreationLine line = true)
    (hbefore : ∀ other ∈ before, isCreationLine (trim other) = false) :
    getCondaCreationLineFromHistory files.readToString envPath = some line := by
  have hnone : (before.map trim).find? isCreationLine = none := by
    simpa using hbefore
  rw [getCondaCreationLineFromHistory, hcontents, Option.bind_some, hlines, List.map_append,
    List.find?_append, hnone, Option.none_or, List.map_cons, hraw, List.find?_cons_of_pos hline]

/-- An installation, and the history of an environment outside of it. -/
def studyFiles : CondaFiles where
  os := unixOs
  tree := plainTree [rootedPath [], rootedPath ["opt"], rootedPath ["opt", "conda"],
    rootedPath ["opt", "conda", "condabin"], rootedPath ["opt", "conda", "conda-meta"],
    rootedPath ["opt", "conda", "bin"]] [rootedPath ["opt", "conda", "bin", "conda"]] (by decide)
  pathFrom := unixPath
  isSymlink _ := false
  readToString _ := some "==> 2024 <==\r\n# cmd:  /opt/conda/bin/conda create -n study"

/-- The line that created it. -/
def studyLine : CreationLine where
  mark := "# cmd:".toList
  gap := "  ".toList
  executable := "/opt/conda/bin/conda".toList
  gap' := []
  verb := " create -".toList
  arguments := "n study".toList
  mark_eq := by decide
  gap_space := forall_of_all (by decide)
  trimmed := by decide
  verb_eq := by decide
  first := by decide

end REnvTools.Analysis
