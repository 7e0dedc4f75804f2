import REnvTools.Analysis.BinaryHeader
import REnvTools.Analysis.ProbeOutput

/-!
# How the details of an installation are found

`read_metadata` takes the version from the `Built` field of a `DESCRIPTION` and the architecture
from a binary, or else from the platform of that field. `get_installation_details` starts R only
where this does not do: `installation_details` is an account of the processes that it starts.
-/

set_option autoImplicit false

namespace REnvTools.Analysis

open Program Lib

variable {host : RuntimeHost} {home executable : PathBuf}

/-! ## The metadata of a home -/

/-- The `Built` field of a `DESCRIPTION`, as R writes it: the version, the platform and more,
separated by semicolons. -/
structure BuiltLine where
  indent : List Char
  version : List Char
  gap : List Char
  others : List (List Char)
  blank : ∀ c ∈ indent ++ gap, isWhitespace c = true
  trimmed : trim version = version
  digit : version.head?.any Char.isDigit = true
  separate : ∀ field ∈ (indent ++ "R ".toList ++ version ++ gap) :: others, ';' ∉ field

namespace BuiltLine

/-- The line. -/
def text (line : BuiltLine) : List Char :=
  "Built:".toList ++
    [';'].intercalate ((line.indent ++ "R ".toList ++ line.version ++ line.gap) :: line.others)

/-- The platform of the line. -/
def platform (line : BuiltLine) : List Char := trim (line.others.headD [])

variable {line : BuiltLine}

/-- INTERNAL: the fields of the line. -/
theorem splitOn_fields :
    ([';'].intercalate ((line.indent ++ "R ".toList ++ line.version ++ line.gap) ::
      line.others)).splitOn ';' =
      (line.indent ++ "R ".toList ++ line.version ++ line.gap) :: line.others :=
  List.splitOn_intercalate ';' line.separate (List.cons_ne_nil _ _)

/-- INTERNAL: the first field is trimmed to the version. -/
theorem trim_first :
    trim (line.indent ++ "R ".toList ++ line.version ++ line.gap) =
      "R ".toList ++ line.version := by
  obtain ⟨hindent, hgap⟩ := List.forall_mem_append.mp line.blank
  rw [List.append_assoc line.indent, trim_append_append hindent hgap]
  refine trim_eq_self (fun c hc => ?_) fun c hc => ?_
  · cases hc
    decide
  · rw [List.getLast?_append] at hc
    cases hversion : line.version.getLast? with
    | none =>
      have hdigit := line.digit
      rw [List.getLast?_eq_none_iff.mp hversion] at hdigit
      cases hdigit
    | some last =>
      rw [hversion, Option.some_or] at hc
      exact last_of_trim_eq line.trimmed c (hversion.trans hc)

end BuiltLine

/-- **The `Built` field** gives the version and the platform that R wrote. -/
theorem builtField_of_lines {content : String} {before after : List (List Char)}
    (line : BuiltLine) (hlines : lines content.toList = before ++ line.text :: after)
    (hbefore : ∀ l ∈ before, stripPrefix "Built:".toList l = none) :
    builtField content = some (line.version, line.platform) := by
  have hfind : (lines content.toList).findSome? (stripPrefix "Built:".toList) =
      some ([';'].intercalate ((line.indent ++ "R ".toList ++ line.version ++ line.gap) ::
        line.others)) := by
    rw [hlines, List.findSome?_append, List.findSome?_eq_none_iff.mpr hbefore, Option.none_or,
      List.findSome?_cons, BuiltLine.text, stripPrefix_eq_some.mpr rfl]
  have hversion : stripPrefix "R ".toList ("R ".toList ++ line.version) = some line.version :=
    stripPrefix_eq_some.mpr rfl
  have hplatform : (((line.indent ++ "R ".toList ++ line.version ++ line.gap) ::
      line.others).map trim)[1]?.getD [] = line.platform := by
    unfold BuiltLine.platform
    cases line.others <;> rfl
  unfold builtField
  rw [hfind]
  simp only [BuiltLine.splitOn_fields, hplatform]
  rw [List.map_cons, List.head?_cons, Option.bind_some, BuiltLine.trim_first, hversion]
  simp only [line.trimmed, line.digit, if_true]

/-- The file has a header that gives the architecture. -/
def HasHeader (host : RuntimeHost) (path : PathBuf) (arch : Architecture) : Prop :=
  ∃ bytes, host.read path = some bytes ∧ IsBinary bytes arch

/-- INTERNAL: reading a header. -/
theorem readHeader_eq_some {path : PathBuf} {arch : Architecture} :
    (host.read path).bind binaryArchitecture = some arch ↔ HasHeader host path arch := by
  rw [Option.bind_eq_some_iff]
  exact exists_congr fun bytes => and_congr_right fun _ => binaryArchitecture_iff bytes arch

/-- INTERNAL: a file without a header. -/
theorem readHeader_eq_none {path : PathBuf} :
    (host.read path).bind binaryArchitecture = none ↔ ∀ arch, ¬HasHeader host path arch := by
  rw [Option.eq_none_iff_forall_ne_some]
  exact forall_congr' fun arch => not_congr readHeader_eq_some

/-- The first of the binaries that has a header. -/
def FirstHeader (host : RuntimeHost) (binaries : List PathBuf) (binary : PathBuf)
    (arch : Architecture) : Prop :=
  ∃ before after, binaries = before ++ binary :: after ∧ HasHeader host binary arch ∧
    ∀ path ∈ before, ∀ arch, ¬HasHeader host path arch

/-- INTERNAL: the first of the binaries that has a header of an architecture. -/
theorem detected_eq_some {binaries : List PathBuf} {binary : PathBuf} {arch : Architecture} :
    (binaries.findSome? fun binary =>
      ((host.read binary).bind binaryArchitecture).map fun arch => (arch, binary)) =
        some (arch, binary) ↔ FirstHeader host binaries binary arch := by
  rw [List.findSome?_eq_some_iff]
  constructor
  · rintro ⟨before, path, after, rfl, hpath, hbefore⟩
    obtain ⟨arch', harch, heq⟩ := Option.map_eq_some_iff.mp hpath
    cases heq
    exact ⟨before, after, rfl, readHeader_eq_some.mp harch, fun other hother =>
      readHeader_eq_none.mp (Option.map_eq_none_iff.mp (hbefore other hother))⟩
  · rintro ⟨before, after, rfl, hheader, hbefore⟩
    refine ⟨before, binary, after, rfl, ?_, fun other hother => ?_⟩
    · rw [readHeader_eq_some.mpr hheader, Option.map_some]
    · rw [readHeader_eq_none.mpr (hbefore other hother), Option.map_none]

/-- INTERNAL: none of the binaries has such a header. -/
theorem detected_eq_none {binaries : List PathBuf} :
    (binaries.findSome? fun binary =>
      ((host.read binary).bind binaryArchitecture).map fun arch => (arch, binary)) = none ↔
        ∀ path ∈ binaries, ∀ arch, ¬HasHeader host path arch := by
  rw [List.findSome?_eq_none_iff]
  refine forall_congr' fun path => forall_congr' fun _ => ?_
  rw [Option.map_eq_none_iff, readHeader_eq_none]

/-- **The metadata of a home**: the version is that of the `DESCRIPTION`, and the architecture
that of the first binary with a header, whatever platform the `DESCRIPTION` gives; only where no
binary has one does the platform count. The files that the cache is to watch are those that this
was read from. -/
theorem read_metadata {content : String} {before after : List (List Char)}
    {description : PathBuf} {binaries : List PathBuf} (line : BuiltLine)
    (hfirst : (["utils", "base"].map (descriptionOf home)).find? host.isFile = some description)
    (hread : host.read description = some (utf8Bytes content))
    (hlines : lines content.toList = before ++ line.text :: after)
    (hbefore : ∀ l ∈ before, stripPrefix "Built:".toList l = none)
    (hbinaries : binariesOf host home executable = some binaries) (found : RMetadata) :
    readMetadata host home executable = some found ↔
      found.version = String.ofList line.version ∧
      ((∃ binary, FirstHeader host binaries binary found.arch ∧
          found.files = [description, binary]) ∨
        (∀ path ∈ binaries, ∀ arch, ¬HasHeader host path arch) ∧
          architecture line.platform = some found.arch ∧ found.files = [description]) := by
  obtain ⟨version, arch, files⟩ := found
  have hbuilt : ((host.read description).bind utf8Text).bind builtField =
      some (line.version, line.platform) := by
    rw [hread, Option.bind_some, utf8Text_utf8Bytes, Option.bind_some]
    exact builtField_of_lines line hlines hbefore
  unfold readMetadata
  simp only [hfirst, hbuilt, hbinaries]
  cases hdetected : binaries.findSome? fun binary =>
      ((host.read binary).bind binaryArchitecture).map fun arch => (arch, binary) with
  | some detected =>
    obtain ⟨arch', binary⟩ := detected
    have hheader := detected_eq_some.mp hdetected
    simp only [Option.some.injEq, RMetadata.mk.injEq]
    constructor
    · rintro ⟨rfl, rfl, rfl⟩
      exact ⟨rfl, .inl ⟨binary, hheader, rfl⟩⟩
    · rintro ⟨rfl, ⟨binary', hheader', rfl⟩ | ⟨hnone, -⟩⟩
      · have hsame := detected_eq_some.mpr hheader'
        rw [hdetected] at hsame
        cases hsame
        exact ⟨rfl, rfl, rfl⟩
      · rw [detected_eq_none.mpr hnone] at hdetected
        cases hdetected
  | none =>
    have hnone := detected_eq_none.mp hdetected
    simp only [Option.map_eq_some_iff, RMetadata.mk.injEq]
    constructor
    · rintro ⟨arch', harch, rfl, rfl, rfl⟩
      exact ⟨rfl, .inr ⟨hnone, harch, rfl⟩⟩
    · rintro ⟨rfl, ⟨binary, hheader, -⟩ | ⟨-, harch, rfl⟩⟩
      · rw [detected_eq_some.mpr hheader] at hdetected
        cases hdetected
      · exact ⟨arch, harch, rfl, rfl, rfl⟩

/-! ## The processes that are started -/

section Processes

variable (host executable)

/-- What is found out without starting a process. -/
def staticRuntime : Option ProbedRuntime :=
  (staticHome host executable).bind (fromMetadata host executable)

/-- The home that the launcher gives when it is asked. -/
def queriedHome (name : String) : Option PathBuf :=
  if host.isFile (homeProcess host executable name).executable then
    (runProbe host (homeProcess host executable name)).bind (printedHome host)
  else none

/-- What is found out in that home. -/
def queriedRuntime (name : String) : Option ProbedRuntime :=
  (queriedHome host executable name).bind (fromMetadata host executable)

/-- What R prints about itself; whether the launcher is one of a framework's versions is known
better from the home, where there is one. -/
def printedRuntime (name : String) : Option ProbedRuntime :=
  ((runProbe host (infoProcess executable name)).bind (parseInstallationDetails host)).map
    fun runtime =>
      { runtime with
        orthogonal := (((staticHome host executable).or (queriedHome host executable name)).bind
          (orthogonal host.os)).or runtime.orthogonal }

/-- The process that asks for the home, if there is a launcher to ask. -/
def homeQuery (name : String) : List ProcessRun :=
  if host.isFile (homeProcess host executable name).executable then
    [homeProcess host executable name]
  else []

variable {host executable}

/-- INTERNAL: the three steps one after the other. -/
theorem getInstallationDetails_eq {name : String} (hname : executable.fileName = some name) :
    getInstallationDetails host executable =
      match staticRuntime host executable with
      | some runtime => (some runtime, [])
      | none =>
        match queriedRuntime host executable name with
        | some runtime => (some runtime, homeQuery host executable name)
        | none => (printedRuntime host executable name,
            homeQuery host executable name ++ [infoProcess executable name]) := by
  unfold getInstallationDetails staticRuntime queriedRuntime printedRuntime queriedHome homeQuery
  cases hstatic : (staticHome host executable).bind (fromMetadata host executable) with
  | some runtime => simp only [hstatic]
  | none =>
    simp only [hstatic, hname]
    cases hfile : host.isFile (homeProcess host executable name).executable with
    | false =>
      simp only [Bool.false_eq_true, if_false, Option.bind_none]
      cases (runProbe host (infoProcess executable name)).bind (parseInstallationDetails host) <;>
        rfl
    | true =>
      simp only [if_true]
      cases ((runProbe host (homeProcess host executable name)).bind (printedHome host)).bind
          (fromMetadata host executable) with
      | some runtime => rfl
      | none =>
        cases (runProbe host (infoProcess executable name)).bind (parseInstallationDetails host) <;>
          rfl

/-- INTERNAL: what is read from files names the files. -/
theorem metadataFiles_fromMetadata {runtime : ProbedRuntime}
    (h : fromMetadata host executable home = some runtime) : runtime.metadataFiles ≠ [] := by
  unfold fromMetadata at h
  obtain ⟨found, hfound, rfl⟩ := Option.map_eq_some_iff.mp h
  unfold readMetadata at hfound
  split at hfound
  · cases hfound
  · split at hfound
    · cases hfound
    · split at hfound
      · cases hfound
      · dsimp only at hfound
        split at hfound
        · cases hfound
          exact List.cons_ne_nil _ _
        · obtain ⟨arch, _, rfl⟩ := Option.map_eq_some_iff.mp hfound
          exact List.cons_ne_nil _ _

/-- INTERNAL: what R prints about itself names none. -/
theorem metadataFiles_printedRuntime {name : String} {runtime : ProbedRuntime}
    (h : printedRuntime host executable name = some runtime) : runtime.metadataFiles = [] := by
  unfold printedRuntime at h
  obtain ⟨printed, hprinted, rfl⟩ := Option.map_eq_some_iff.mp h
  obtain ⟨stdout, _, hparse⟩ := Option.bind_eq_some_iff.mp hprinted
  unfold parseInstallationDetails at hparse
  split at hparse
  · cases hparse
  · split at hparse
    · obtain ⟨arch, _, rfl⟩ := Option.map_eq_some_iff.mp hparse
      rfl
    · cases hparse

/-- INTERNAL: the two processes are told apart by their arguments. -/
theorem homeProcess_ne_infoProcess (host : RuntimeHost) (executable : PathBuf) (name : String) :
    homeProcess host executable name ≠ infoProcess executable name := by
  intro h
  have hargs := congrArg ProcessRun.args h
  unfold homeProcess infoProcess at hargs
  dsimp only at hargs
  split at hargs <;> simp at hargs

/-- **The processes of `get_installation_details`**: at most two, the launcher asked for its home
and then R asked for everything. Neither is started if the metadata can be read from a home that
is known; the second only if it cannot be read from the home that the launcher gives either. What
was found out names the files it was read from, unless R itself was asked, and nothing is given up
without asking R itself. -/
theorem installation_details {name : String} (hname : executable.fileName = some name) :
    (getInstallationDetails host executable).2.Sublist
        [homeProcess host executable name, infoProcess executable name] ∧
      (homeProcess host executable name ∈ (getInstallationDetails host executable).2 ↔
        staticRuntime host executable = none ∧
          host.isFile (homeProcess host executable name).executable = true) ∧
      (infoProcess executable name ∈ (getInstallationDetails host executable).2 ↔
        staticRuntime host executable = none ∧ queriedRuntime host executable name = none) ∧
      (getInstallationDetails host executable).1 =
        ((staticRuntime host executable).or (queriedRuntime host executable name)).or
          (printedRuntime host executable name) ∧
      (∀ runtime, (getInstallationDetails host executable).1 = some runtime →
        (runtime.metadataFiles = [] ↔
          infoProcess executable name ∈ (getInstallationDetails host executable).2)) ∧
      ((getInstallationDetails host executable).1 = none →
        infoProcess executable name ∈ (getInstallationDetails host executable).2) := by
  have hne := homeProcess_ne_infoProcess host executable name
  have hquery : infoProcess executable name ∉ homeQuery host executable name := by
    unfold homeQuery
    split
    · exact fun h => hne (List.mem_singleton.mp h).symm
    · exact List.not_mem_nil
  have hhome : homeProcess host executable name ∈ homeQuery host executable name ↔
      host.isFile (homeProcess host executable name).executable = true := by
    unfold homeQuery
    split <;> simp_all
  have hsublist : (homeQuery host executable name).Sublist
      [homeProcess host executable name] := by
    unfold homeQuery
    split
    · exact List.Sublist.refl _
    · exact List.nil_sublist _
  rw [getInstallationDetails_eq hname]
  cases hstatic : staticRuntime host executable with
  | some runtime =>
    obtain ⟨home, _, hread⟩ := Option.bind_eq_some_iff.mp hstatic
    have hfiles := metadataFiles_fromMetadata hread
    refine ⟨List.nil_sublist _, by simp, by simp, rfl, fun runtime' h => ?_, fun h => by cases h⟩
    cases h
    simp [hfiles]
  | none =>
    cases hqueried : queriedRuntime host executable name with
    | some runtime =>
      obtain ⟨home, _, hread⟩ := Option.bind_eq_some_iff.mp hqueried
      have hfiles := metadataFiles_fromMetadata hread
      refine ⟨hsublist.trans (List.sublist_append_left _ [_]), ?_, by simp [hquery], rfl,
        fun runtime' h => ?_, fun h => by cases h⟩
      · simpa using hhome
      · cases h
        simp [hfiles, hquery]
    | none =>
      refine ⟨hsublist.append (List.Sublist.refl _), ?_, by simp, by simp,
        fun runtime' h => ?_, fun _ => List.mem_append_right _ List.mem_cons_self⟩
      · simp [hhome, hne]
      · simp [metadataFiles_printedRuntime h]

end Processes

/-! ## A home with a library -/

/-- The home. -/
def libraryHome : PathBuf := rootedPath ["usr", "lib", "R"]

/-- The line of its `DESCRIPTION` that counts. -/
def libraryLine : BuiltLine where
  indent := [' ']
  version := "4.4.2".toList
  gap := []
  others := [" x86_64-pc-linux-gnu".toList, " unix".toList]
  blank := forall_of_all (by decide)
  trimmed := by decide
  digit := by decide
  separate := by decide

/-- A machine with the home. -/
def libraryHost : RuntimeHost where
  os := ⟨false, id, some⟩
  macos := false
  pathFrom := unixPath
  var _ := none
  isFile path := decide (path = descriptionOf libraryHome "utils")
  read path :=
    if path = descriptionOf libraryHome "utils" then
      some (utf8Bytes "Package: utils\nBuilt: R 4.4.2; x86_64-pc-linux-gnu; unix\n")
    else none
  run _ _ := none

/-- The theorem for a library that tells its version and architecture. -/
theorem read_metadata_library :
    readMetadata libraryHost libraryHome (rootedPath ["usr", "bin", "R"]) =
      some ⟨"4.4.2", .x64, [descriptionOf libraryHome "utils"]⟩ := by
  refine (@read_metadata libraryHost libraryHome (rootedPath ["usr", "bin", "R"])
    "Package: utils\nBuilt: R 4.4.2; x86_64-pc-linux-gnu; unix\n" ["Package: utils".toList] []
    (descriptionOf libraryHome "utils")
    [joinRelative libraryHost ((libraryHome.join "bin").join "exec") "" |>.join "R"] libraryLine
    (by decide) (by decide) (by decide) (by decide) (by decide) _).mpr
    ⟨by decide, .inr ⟨?_, by decide, rfl⟩⟩
  intro path hpath arch hheader
  obtain ⟨bytes, hread, -⟩ := hheader
  have hnone : libraryHost.read
      ((joinRelative libraryHost ((libraryHome.join "bin").join "exec") "").join "R") = none := by
    decide
  rw [List.mem_singleton.mp hpath, hnone] at hread
  cases hread

/-- The theorem for an R that prints a greeting first. -/
theorem installation_details_greeting :
    infoProcess shellLauncher "R" ∈ (getInstallationDetails greetingHost shellLauncher).2 ↔
      staticRuntime greetingHost shellLauncher = none ∧
        queriedRuntime greetingHost shellLauncher "R" = none :=
  (@installation_details greetingHost shellLauncher "R" (by decide)).2.2.1

end REnvTools.Analysis
