import REnvTools.Lib.Reading
import REnvTools.Program.Conda
import REnvTools.Program.Text

/-!
# The metadata of Conda packages

`RCondaPackageInfo::from` and `CondaEnvironmentFingerprint::from_prefix`, as programs that
read the `conda-meta` directory of a prefix step by step. A path in this directory is its
name there. The two regular expressions are written out; which characters are `\d` to them,
and what `serde_json` makes of a package file, is asked of the `PackageParser`.

SRC: crates/ret-conda/src/package.rs, lib.rs:66-118
-/

set_option autoImplicit false

namespace REnvTools.Program

open Lib

/-! ## What is read -/

/-- `FileFingerprint`. -/
structure FileFingerprint where
  modified : ℕ
  len : ℕ
  deriving DecidableEq

/-- What is asked of the `conda-meta` directory of a prefix. -/
inductive MetaQuery
  /-- `Path::exists` of a file in it. -/
  | pathExists (name : String)
  /-- `FileFingerprint::from_path` of a file in it. -/
  | fingerprint (name : String)
  /-- `FileFingerprint::from_path` of the directory. -/
  | condaMetaFingerprint
  /-- `read_dir` of the directory. -/
  | readDir
  /-- `read_to_string` of a file in it. -/
  | readToString (name : String)

/-- The answers. -/
abbrev MetaAnswer : MetaQuery → Type
  | .pathExists _ => Bool
  | .fingerprint _ | .condaMetaFingerprint => Option FileFingerprint
  | .readDir => Option (List String)
  | .readToString _ => Option String

/-- A program that reads the directory. -/
abbrev MetaReading (ρ : Type) := Reading MetaQuery MetaAnswer ρ

/-! ## Package files -/

/-- `CondaMetaPackage`, without the channel, which is not used. -/
structure CondaMetaPackage where
  version : Option String
  subdir : Option String
  arch : Option String

/-- What the parsing of package files is built on. -/
structure PackageParser where
  isDecimal : Char → Bool
  fromStr : String → Option CondaMetaPackage

variable (parser : PackageParser)

/-- `parse_arch`. The names of the architectures are ASCII, so other letters may keep their
case. -/
def parseArch (pkg : CondaMetaPackage) : Option Architecture :=
  let fromArch : Option Architecture :=
    match pkg.arch with
    | some a =>
      let a := toAsciiLowercase a
      if textContains a "aarch64" || textContains a "arm64" then some .arm64
      else if textContains a "x86_64" then some .x64
      else if textContains a "x86" || textContains a "i686" || textContains a "i386" then some .x86
      else none
    | none => none
  let fromSubdir : Option Architecture :=
    match pkg.subdir with
    | some sd =>
      let sd := toAsciiLowercase sd
      if textContains sd "aarch64" || textContains sd "arm64" then some .arm64
      else if textContains sd "64" then some .x64
      else if textContains sd "32" then some .x86
      else none
    | none => none
  fromArch.or fromSubdir

/-- `read_package_json`. -/
def readPackageJson (path fallbackVersion : String) : MetaReading (Option RCondaPackageInfo) :=
  .ask (.readToString path) fun contents =>
    .done ((contents.bind parser.fromStr).map fun pkg =>
      ⟨pkg.version.getD fallbackVersion, parseArch pkg⟩)

/-- The file names that are looked at: `r-base-*.json`. -/
def isRBasePackage (name : String) : Bool :=
  "r-base-".toList.isPrefixOf name.toList && ".json".toList.isSuffixOf name.toList

/-! ## The regular expressions -/

/-- What is left of a text that starts with `r-base-`. -/
def afterRBase (text : List Char) : Option (List Char) :=
  if "r-base-".toList.isPrefixOf text then some (text.drop "r-base-".toList.length) else none

/-- The captured version of `R_BASE_VERSION`, `^r-base-([\d+\.*]*)-.*\.json$`: no character of
the version is a hyphen, so it goes up to the first one. -/
def rBaseVersion (filename : String) : Option String :=
  match afterRBase filename.toList with
  | none => none
  | some rest =>
    let version := rest.takeWhile fun c => parser.isDecimal c || ['+', '.', '*'].contains c
    match rest.drop version.length with
    | '-' :: tail =>
      if ".json".toList.isSuffixOf tail && !(tail.contains '\n') then
        some (String.ofList version)
      else none
    | _ => none

/-- The captured version and hash of `r-base-([\d+\.]*)-([^\s]+)` at the start of a text. -/
def rBaseAt (text : List Char) : Option (String × String) :=
  match afterRBase text with
  | none => none
  | some rest =>
    let version := rest.takeWhile fun c => parser.isDecimal c || ['+', '.'].contains c
    match rest.drop version.length with
    | '-' :: tail =>
      match tail.takeWhile (!isWhitespace ·) with
      | [] => none
      | hash => some (String.ofList version, String.ofList hash)
    | _ => none

/-- The captures of `R_BASE_VERSION_IN_HISTORY`, which has `.*` before that: the last place in
the line where it matches. -/
def rBaseVersionInHistory (line : List Char) : Option (String × String) :=
  line.tails.reverse.findSome? (rBaseAt parser)

/-! ## `RCondaPackageInfo::from` -/

/-- `str::lines`: a line ends with a line feed, or with a carriage return and a line feed. -/
def lines (contents : List Char) : List (List Char) :=
  let pieces := contents.splitOn '\n'
  let ended := pieces.dropLast.map fun line =>
    if line.getLast? = some '\r' then line.dropLast else line
  match pieces.getLast? with
  | none | some [] => ended
  | some last => ended ++ [last]

/-- `HistoryLookup`. -/
inductive HistoryLookup
  | exact (info : RCondaPackageInfo)
  | versionOnly (version : String)

/-- The line of the history that counts: the last one about an installed `r-base`. -/
def lastRBaseLine (contents : String) : Option (List Char) :=
  ((lines contents.toList).filter fun line =>
    line.head? = some '+' && decide (":r-base-".toList <:+: line)).getLast?

/-- `get_r_info_from_history`. -/
def getRInfoFromHistory : MetaReading (Option HistoryLookup) :=
  .ask (.readToString "history") fun contents =>
    match (contents.bind lastRBaseLine).bind (rBaseVersionInHistory parser) with
    | none => .done none
    | some (version, hash) =>
      let packageFilename := "r-base-" ++ version ++ "-" ++ hash ++ ".json"
      (readPackageJson parser packageFilename version).map fun info =>
        match info with
        | some info => some (.exact info)
        | none => some (.versionOnly version)

/-- The packages among the entries of the directory, with their versions, in the order in which
`get_r_info_from_package_files` sorts them. -/
def matchingPackages (entries : List String) : List (String ×ₗ String) :=
  (entries.filterMap fun filename =>
    if isRBasePackage filename then
      (rBaseVersion parser filename).map fun version => toLex (version, filename)
    else none).insertionSort (· ≤ ·)

/-- The package that `get_r_info_from_package_files` reads. -/
def choosePackage (preferredVersion : Option String) (matching : List (String ×ₗ String)) :
    Option (String ×ₗ String) :=
  (preferredVersion.bind fun preferred =>
    matching.find? fun package => (ofLex package).1 == preferred).or matching.head?

/-- `get_r_info_from_package_files`. -/
def getRInfoFromPackageFiles (preferredVersion : Option String) :
    MetaReading (Option RCondaPackageInfo) :=
  .ask .readDir fun entries =>
    match entries.bind fun entries =>
        choosePackage preferredVersion (matchingPackages parser entries) with
    | none => .done none
    | some package =>
      (readPackageJson parser (ofLex package).2 (ofLex package).1).map fun info =>
        info.or (some ⟨(ofLex package).1, none⟩)

/-- `RCondaPackageInfo::from`. -/
def rCondaPackageInfoFrom : MetaReading (Option RCondaPackageInfo) :=
  (getRInfoFromHistory parser).bind fun lookup =>
    match lookup with
    | some (.exact info) => .done (some info)
    | some (.versionOnly version) =>
      (getRInfoFromPackageFiles parser (some version)).map fun info =>
        info.or (some ⟨version, none⟩)
    | none => getRInfoFromPackageFiles parser none

/-! ## `CondaEnvironmentFingerprint::from_prefix` -/

/-- `CondaEnvironmentFingerprint`. -/
structure CondaEnvironmentFingerprint where
  condaMeta : FileFingerprint
  history : Option FileFingerprint
  rBasePackages : List (PathBuf × FileFingerprint)
  deriving DecidableEq

/-- The path of a file in the directory. -/
def condaMetaPath (condaPrefix : PathBuf) (name : String) : PathBuf :=
  (condaPrefix.join "conda-meta").join name

/-- The fingerprints of the given files, as far as they can be read. -/
def fingerprintPackages (condaPrefix : PathBuf) :
    List String → MetaReading (List (PathBuf × FileFingerprint))
  | [] => .done []
  | name :: names =>
    .ask (.fingerprint name) fun value =>
      (fingerprintPackages condaPrefix names).map fun rest =>
        (value.map fun value => (condaMetaPath condaPrefix name, value)).toList ++ rest

/-- `CondaEnvironmentFingerprint::from_prefix`, once the history is read. -/
def fingerprintEntries (condaPrefix : PathBuf) (history : Option FileFingerprint) :
    MetaReading (Option CondaEnvironmentFingerprint) :=
  .ask .readDir fun entries =>
    match entries with
    | none => .done none
    | some entries =>
      (fingerprintPackages condaPrefix (entries.filter isRBasePackage)).bind fun packages =>
        .ask .condaMetaFingerprint fun condaMeta =>
          .done (condaMeta.map fun condaMeta =>
            { condaMeta := condaMeta
              history := history
              rBasePackages := packages.insertionSort fun left right => left.1 ≤ right.1 })

/-- `CondaEnvironmentFingerprint::from_prefix`. -/
def fingerprintFromPrefix (condaPrefix : PathBuf) :
    MetaReading (Option CondaEnvironmentFingerprint) :=
  .ask (.pathExists "history") fun present =>
    if present then
      .ask (.fingerprint "history") fun history =>
        match history with
        | none => .done none
        | some history => fingerprintEntries condaPrefix (some history)
    else fingerprintEntries condaPrefix none

end REnvTools.Program
