import REnvTools.Analysis.LauncherHome
import REnvTools.Program.Details

/-!
# The output of a probe

R prints a marker, and then its version, its home and its architecture on lines of their own.
Start-up files and activation scripts print what they like before that. As long as this noise does
not have the marker in it, the details are read as R printed them.
-/

set_option autoImplicit false

namespace REnvTools.Analysis

open Program Lib

/-! ## Lines -/

/-- INTERNAL: a line without the carriage return at its end. -/
def withoutReturn (line : List Char) : List Char :=
  if line.getLast? = some '\r' then line.dropLast else line

/-- The first line of a text. -/
theorem lines_cons {line : List Char} (h : '\n' ∉ line) (rest : List Char) :
    lines (line ++ '\n' :: rest) = withoutReturn line :: lines rest := by
  have hsplit : (line ++ '\n' :: rest).splitOn '\n' = line :: rest.splitOn '\n' := by
    rw [List.splitOn_eq_splitOnP, List.splitOn_eq_splitOnP]
    refine List.splitOnP_append_cons_of_forall_mem (fun c hc => ?_) _ (by simp) _
    exact beq_eq_false_iff_ne.mpr fun heq => h (heq ▸ hc)
  obtain ⟨ended, last, hpieces⟩ : ∃ ended last, rest.splitOn '\n' = ended ++ [last] :=
    ⟨_, _, (List.dropLast_append_getLast (List.splitOn_ne_nil '\n' rest)).symm⟩
  unfold lines
  rw [hsplit, hpieces, ← List.cons_append]
  simp only [List.dropLast_concat, List.getLast?_concat, List.map_cons]
  cases last <;> rfl

/-- INTERNAL: a carriage return is trimmed. -/
theorem trim_withoutReturn (line : List Char) : trim (withoutReturn line) = trim line := by
  unfold withoutReturn
  split
  · rename_i hlast
    conv_rhs => rw [← List.dropLast_append_getLast? _ hlast]
    rw [← List.nil_append (line.dropLast ++ ['\r']), ← List.append_assoc,
      trim_append_append (List.forall_mem_nil _) (List.forall_mem_singleton.mpr rfl)]
  · rfl

/-- INTERNAL: the trimmed lines of a text. -/
theorem map_trim_lines_cons {line : List Char} (h : '\n' ∉ line) (rest : List Char) :
    (lines (line ++ '\n' :: rest)).map trim = trim line :: (lines rest).map trim := by
  rw [lines_cons h, List.map_cons, trim_withoutReturn]

/-- INTERNAL: the only line of a text without a line feed. -/
theorem lines_singleton {line : List Char} (h : '\n' ∉ line) (hne : line ≠ []) :
    lines line = [line] := by
  have hsplit : line.splitOn '\n' = [line] := by
    rw [List.splitOn_eq_splitOnP]
    exact List.splitOnP_eq_singleton fun c hc => beq_eq_false_iff_ne.mpr fun heq => h (heq ▸ hc)
  obtain ⟨c, line, rfl⟩ := List.exists_cons_of_ne_nil hne
  unfold lines
  rw [hsplit]
  rfl

/-! ## What R prints -/

/-- A text on a line of its own. -/
structure IsField (text : List Char) : Prop where
  oneLine : '\n' ∉ text
  trimmed : trim text = text
  nonempty : text ≠ []

/-- What R prints between the marker and the end of the third line. -/
def printedInfo (version home arch : List Char) : List Char :=
  rInfoSeparator.toList ++ '\n' :: (version ++ '\n' :: (home ++ '\n' :: arch))

/-- INTERNAL: the separator does not overlap itself. -/
theorem unbordered_rInfoSeparator : Unbordered rInfoSeparator.toList := by decide

/-- INTERNAL: the marker does not overlap itself. -/
theorem unbordered_launcherMarker : Unbordered launcherMarker.toList := by decide

variable {host : RuntimeHost} {noise version home arch more : List Char} {parsed : Architecture}

/-- **The details are read as R printed them**, whatever was printed before the marker, and
whatever follows the third line. -/
theorem parse_printedInfo (hnoise : ¬rInfoSeparator.toList <:+: noise) (hversion : IsField version)
    (hhome : IsField home) (harch : IsField arch) (hparsed : architecture arch = some parsed)
    (hmore : more = [] ∨ ∃ rest, more = '\n' :: rest) :
    parseInstallationDetails host (noise ++ printedInfo version home arch ++ more) =
      some ⟨host.pathFrom (String.ofList home), String.ofList version, parsed, [],
        orthogonal host.os (host.pathFrom (String.ofList home))⟩ := by
  have hcut : cutAt rInfoSeparator.toList (noise ++ printedInfo version home arch ++ more) =
      some (noise, '\n' :: (version ++ '\n' :: (home ++ '\n' :: arch)) ++ more) := by
    have h := cutAt_append unbordered_rInfoSeparator (by decide) hnoise
      ('\n' :: (version ++ '\n' :: (home ++ '\n' :: arch)) ++ more)
    rw [← h]
    simp [printedInfo]
  have hlast : ∃ others, ((lines (arch ++ more)).map trim).filter (· ≠ []) = arch :: others := by
    obtain rfl | ⟨rest, rfl⟩ := hmore
    · refine ⟨[], ?_⟩
      rw [List.append_nil, lines_singleton harch.oneLine harch.nonempty, List.map_singleton,
        harch.trimmed]
      simp [harch.nonempty]
    · refine ⟨((lines rest).map trim).filter (· ≠ []), ?_⟩
      rw [map_trim_lines_cons harch.oneLine, harch.trimmed]
      simp [harch.nonempty]
  obtain ⟨others, hothers⟩ := hlast
  have hlines : ((lines ('\n' :: (version ++ '\n' :: (home ++ '\n' :: arch)) ++ more)).map
      trim).filter (· ≠ []) = version :: home :: arch :: others := by
    have hpayload : '\n' :: (version ++ '\n' :: (home ++ '\n' :: arch)) ++ more =
        [] ++ '\n' :: (version ++ '\n' :: (home ++ '\n' :: (arch ++ more))) := by
      simp
    rw [hpayload, map_trim_lines_cons (by simp), map_trim_lines_cons hversion.oneLine,
      map_trim_lines_cons hhome.oneLine, hversion.trimmed, hhome.trimmed]
    have hblank : trim [] = [] := rfl
    rw [hblank, List.filter_cons_of_neg (by simp),
      List.filter_cons_of_pos (by simpa using hversion.nonempty),
      List.filter_cons_of_pos (by simpa using hhome.nonempty), hothers]
  unfold parseInstallationDetails
  simp only [hcut, hlines, hparsed, Option.map_some]

/-- INTERNAL: trimming the output of a probe takes noise from its ends only. -/
theorem trim_printedInfo (noise version home : List Char) (harch : IsField arch)
    (tail : List Char) :
    ∃ more, trim (noise ++ printedInfo version home arch ++ '\n' :: tail) =
        trimStart noise ++ printedInfo version home arch ++ more ∧
      (more = [] ∨ ∃ rest, more = '\n' :: rest) := by
  obtain ⟨front, last, rfl⟩ : ∃ front last, arch = front ++ [last] :=
    ⟨_, _, (List.dropLast_append_getLast harch.nonempty).symm⟩
  have hlast : isWhitespace last = false :=
    last_of_trim_eq harch.trimmed last List.getLast?_concat
  have hmarker : ∃ body, printedInfo version home (front ++ [last]) = 'r' :: (body ++ [last]) :=
    ⟨"et-r-installation-info".toList ++ '\n' :: (version ++ '\n' :: (home ++ '\n' :: front)),
      by simp [printedInfo, rInfoSeparator]⟩
  obtain ⟨body, hbody⟩ := hmarker
  refine ⟨('\n' :: tail).rdropWhile isWhitespace, ?_, ?_⟩
  · have hstart : trimStart (noise ++ 'r' :: (body ++ [last]) ++ '\n' :: tail) =
        trimStart noise ++ 'r' :: (body ++ [last]) ++ '\n' :: tail := by
      rw [List.append_assoc, List.cons_append]
      unfold trimStart
      rw [dropWhile_append_cons _ _ (by decide)]
      simp
    have hend : trimStart noise ++ 'r' :: (body ++ [last]) ++ '\n' :: tail =
        (trimStart noise ++ 'r' :: body) ++ last :: '\n' :: tail := by
      simp
    rw [hbody, trim, hstart, hend, trimEnd, rdropWhile_append_cons _ _ hlast]
    simp
  · cases hrest : ('\n' :: tail).rdropWhile isWhitespace with
    | nil => exact .inl rfl
    | cons c rest =>
      have hprefix := List.rdropWhile_prefix isWhitespace ('\n' :: tail)
      rw [hrest] at hprefix
      rw [(List.cons_prefix_cons.mp hprefix).1]
      exact .inr ⟨rest, rfl⟩

/-- The output of R. -/
def greetingOutput : String :=
  "Hello\nret-r-installation-info\n4.4.2\n/usr/lib/R\nx86_64\n"

/-- A machine on which R prints it, also in an activation shell. -/
def greetingHost : RuntimeHost where
  os := ⟨false, id, some⟩
  macos := false
  pathFrom := unixPath
  var _ := none
  isFile _ := false
  read _ := none
  run _ args :=
    if args.head? = some "-c" then
      some ("Activated\nret-r-launcher\n/usr/bin/R\n" ++ greetingOutput)
    else some greetingOutput

/-- INTERNAL: a version is a field. -/
theorem isField_version : IsField "4.4.2".toList := ⟨by decide, by decide, by decide⟩

/-- INTERNAL: a home is a field. -/
theorem isField_home : IsField "/usr/lib/R".toList := ⟨by decide, by decide, by decide⟩

/-- INTERNAL: an architecture is a field. -/
theorem isField_arch : IsField "x86_64".toList := ⟨by decide, by decide, by decide⟩

end REnvTools.Analysis
