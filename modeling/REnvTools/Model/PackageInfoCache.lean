import Mathlib.Data.Finmap
import REnvTools.Lib.Snapshots
import REnvTools.Lib.TaskPool
import REnvTools.Program.CondaPackages

/-!
# The cache of package metadata

Any number of calls of `get_package_info` by locators that share their cache, with the part of
`find` that thins the cache out, while other programs modify the prefixes: in any interleaving.
Each answer to a reading is a step of its own; a section under the write lock that reads no
file is one step.

A prefix is known by what `norm_case` makes of it, and what is known of it is its `conda-meta`.
Whoever modifies an entry or the directory gives it a fingerprint that it never had. What a
name in the history may reach outside of the directory is not modified.

SRC: crates/ret-conda/src/lib.rs:120-189, 542-549
-/

set_option autoImplicit false

namespace REnvTools.Model

open Program Lib

/-! ## The directory -/

/-- A file in the directory, with its text if that can be read. -/
structure MetaFile where
  fingerprint : FileFingerprint
  contents : Option String

/-- A `conda-meta` directory; an entry without a file is a link that leads nowhere. -/
structure CondaMeta where
  fingerprint : FileFingerprint
  entries : Finmap fun _ : String => Option MetaFile

/-- What the directory itself holds: the names, and which of them are of files. -/
def CondaMeta.directory (condaMeta : CondaMeta) : FileFingerprint × (String → Option Bool) :=
  (condaMeta.fingerprint, fun name => (condaMeta.entries.lookup name).map (·.isSome))

/-- The file of this name, if there is the directory and it has one. -/
def fileAt (condaMeta : Option CondaMeta) (name : String) : Option MetaFile :=
  condaMeta.bind fun condaMeta => (condaMeta.entries.lookup name).join

/-- The answers that the directory, or its absence, gives; `elsewhere` is the text at a name
that leads out of it. A directory is listed in any order. -/
def MetaAnswers (elsewhere : String → Option (Option String)) (condaMeta : Option CondaMeta) :
    (query : MetaQuery) → MetaAnswer query → Prop
  | .pathExists name, answer => answer = (fileAt condaMeta name).isSome
  | .fingerprint name, answer => answer = (fileAt condaMeta name).map (·.fingerprint)
  | .condaMetaFingerprint, answer => answer = condaMeta.map (·.fingerprint)
  | .readDir, none => condaMeta = none
  | .readDir, some names => ∃ present, condaMeta = some present ∧ names.Nodup ∧
      ∀ name, name ∈ names ↔ name ∈ present.entries
  | .readToString name, answer =>
      answer = (elsewhere name).getD ((fileAt condaMeta name).bind (·.contents))

/-! ## State -/

/-- What the locators run on. -/
structure PackageHost extends Os where
  parser : PackageParser
  elsewhere : PathBuf → String → Option (Option String)

/-- `CachedPackageInfo`. -/
structure CachedPackageInfo where
  fingerprint : CondaEnvironmentFingerprint
  info : RCondaPackageInfo

/-- `PackageInfoCache`, without its lock. -/
abbrev PackageInfoCache := Finmap fun _ : PathBuf => CachedPackageInfo

/-- The directories of all prefixes. -/
abbrev CondaDisk := PathBuf → Option CondaMeta

/-- The disk, as it was before each modification and as it is now, and the cache. -/
structure PackageWorld where
  earlier : List CondaDisk
  disk : CondaDisk
  cache : PackageInfoCache
  locked : Bool

/-- Where a call is; `start` and `stop` are the instants at which it began and at which it last
read a part of its first fingerprint. -/
inductive PackageCall
  | fingerprinting (condaPrefix : PathBuf) (start stop : ℕ)
      (left : MetaReading (Option CondaEnvironmentFingerprint))
  | fingerprinted (condaPrefix : PathBuf) (start stop : ℕ)
      (before : Option CondaEnvironmentFingerprint)
  | hit (condaPrefix : PathBuf) (start stop : ℕ) (info : RCondaPackageInfo)
  | parsing (condaPrefix : PathBuf) (before : Option CondaEnvironmentFingerprint)
      (left : MetaReading (Option RCondaPackageInfo))
  | validating (condaPrefix : PathBuf) (before : Option CondaEnvironmentFingerprint)
      (info : RCondaPackageInfo) (left : MetaReading (Option CondaEnvironmentFingerprint))
  | returned (condaPrefix : PathBuf) (info : Option RCondaPackageInfo)
  | finding
  | retaining (checked : List PathBuf)
  | found
  | modifying
  | modified

namespace PackageWorld

/-- The disk at each instant so far. -/
def disks (w : PackageWorld) : List CondaDisk := w.earlier ++ [w.disk]

/-- The present instant. -/
def now (w : PackageWorld) : ℕ := w.earlier.length

/-- The directory of a prefix at each instant. -/
def directories (w : PackageWorld) (key : PathBuf) :
    List (Option (FileFingerprint × (String → Option Bool))) :=
  w.disks.map fun disk => (disk key).map (·.directory)

/-- A file of a prefix at each instant. -/
def files (w : PackageWorld) (key : PathBuf) (name : String) : List (Option MetaFile) :=
  w.disks.map fun disk => fileAt (disk key) name

/-- The modifications that may turn the disk into this one: what is modified has a fingerprint
that it never had before. -/
structure Modifies (w : PackageWorld) (disk : CondaDisk) : Prop where
  directory : ∀ key, Unrepeated Prod.fst (w.directories key) ((disk key).map (·.directory))
  file : ∀ key name, Unrepeated MetaFile.fingerprint (w.files key name) (fileAt (disk key) name)

/-- The entry that is returned: that of the prefix, if it has the fingerprint. -/
def cached (w : PackageWorld) (key : PathBuf) (before : Option CondaEnvironmentFingerprint) :
    Option RCondaPackageInfo :=
  before.bind fun fingerprint =>
    ((w.cache.lookup key).filter (·.fingerprint = fingerprint)).map (·.info)

/-- What is kept of a parse between two fingerprints. -/
def record (w : PackageWorld) (key : PathBuf) (before after : Option CondaEnvironmentFingerprint)
    (info : RCondaPackageInfo) : PackageInfoCache :=
  match after with
  | some fingerprint =>
    if before = some fingerprint then w.cache.insert key ⟨fingerprint, info⟩
    else w.cache.erase key
  | none => w.cache.erase key

end PackageWorld

/-! ## Steps -/

variable (host : PackageHost)

/-- The answers of the present disk about a prefix. -/
def PackageWorld.Answers (w : PackageWorld) (condaPrefix : PathBuf) :
    (query : MetaQuery) → MetaAnswer query → Prop :=
  MetaAnswers (host.elsewhere (host.normCase condaPrefix)) (w.disk (host.normCase condaPrefix))

/-- The steps of the calls. -/
inductive PackageStep : PackageWorld → PackageCall → PackageWorld → PackageCall → Prop
  | readBefore {w : PackageWorld} {condaPrefix : PathBuf} {start stop : ℕ} {query : MetaQuery}
      {next : MetaAnswer query → MetaReading (Option CondaEnvironmentFingerprint)}
      {answer : MetaAnswer query} (h : w.Answers host condaPrefix query answer) :
      PackageStep w (.fingerprinting condaPrefix start stop (.ask query next)) w
        (.fingerprinting condaPrefix start w.now (next answer))
  | fingerprint {w : PackageWorld} {condaPrefix : PathBuf} {start stop : ℕ}
      {before : Option CondaEnvironmentFingerprint} :
      PackageStep w (.fingerprinting condaPrefix start stop (.done before)) w
        (.fingerprinted condaPrefix start stop before)
  | hit {w : PackageWorld} {condaPrefix : PathBuf} {start stop : ℕ}
      {before : Option CondaEnvironmentFingerprint} {info : RCondaPackageInfo}
      (hfree : w.locked = false)
      (h : w.cached (host.normCase condaPrefix) before = some info) :
      PackageStep w (.fingerprinted condaPrefix start stop before) w
        (.hit condaPrefix start stop info)
  | miss {w : PackageWorld} {condaPrefix : PathBuf} {start stop : ℕ}
      {before : Option CondaEnvironmentFingerprint} (hfree : w.locked = false)
      (h : w.cached (host.normCase condaPrefix) before = none) :
      PackageStep w (.fingerprinted condaPrefix start stop before) { w with locked := true }
        (.parsing condaPrefix before (rCondaPackageInfoFrom host.parser))
  | parse {w : PackageWorld} {condaPrefix : PathBuf}
      {before : Option CondaEnvironmentFingerprint} {query : MetaQuery}
      {next : MetaAnswer query → MetaReading (Option RCondaPackageInfo)}
      {answer : MetaAnswer query} (h : w.Answers host condaPrefix query answer) :
      PackageStep w (.parsing condaPrefix before (.ask query next)) w
        (.parsing condaPrefix before (next answer))
  | noInfo {w : PackageWorld} {condaPrefix : PathBuf}
      {before : Option CondaEnvironmentFingerprint} :
      PackageStep w (.parsing condaPrefix before (.done none))
        { w with cache := w.cache.erase (host.normCase condaPrefix), locked := false }
        (.returned condaPrefix none)
  | parsed {w : PackageWorld} {condaPrefix : PathBuf}
      {before : Option CondaEnvironmentFingerprint} {info : RCondaPackageInfo} :
      PackageStep w (.parsing condaPrefix before (.done (some info))) w
        (.validating condaPrefix before info (fingerprintFromPrefix condaPrefix))
  | readAfter {w : PackageWorld} {condaPrefix : PathBuf}
      {before : Option CondaEnvironmentFingerprint} {info : RCondaPackageInfo}
      {query : MetaQuery}
      {next : MetaAnswer query → MetaReading (Option CondaEnvironmentFingerprint)}
      {answer : MetaAnswer query} (h : w.Answers host condaPrefix query answer) :
      PackageStep w (.validating condaPrefix before info (.ask query next)) w
        (.validating condaPrefix before info (next answer))
  | record {w : PackageWorld} {condaPrefix : PathBuf}
      {before after : Option CondaEnvironmentFingerprint} {info : RCondaPackageInfo} :
      PackageStep w (.validating condaPrefix before info (.done after))
        { w with
          cache := w.record (host.normCase condaPrefix) before after info
          locked := false }
        (.returned condaPrefix (some info))
  /-- `find` takes the lock to drop the prefixes that have no `conda-meta` directory. -/
  | startRetain {w : PackageWorld} (hfree : w.locked = false) :
      PackageStep w .finding { w with locked := true } (.retaining [])
  | retain {w : PackageWorld} {checked : List PathBuf} {key : PathBuf} (hkey : key ∈ w.cache)
      (hchecked : key ∉ checked) (h : w.disk (host.normCase key) ≠ none) :
      PackageStep w (.retaining checked) w (.retaining (key :: checked))
  | drop {w : PackageWorld} {checked : List PathBuf} {key : PathBuf} (hkey : key ∈ w.cache)
      (hchecked : key ∉ checked) (h : w.disk (host.normCase key) = none) :
      PackageStep w (.retaining checked) { w with cache := w.cache.erase key }
        (.retaining (key :: checked))
  | endRetain {w : PackageWorld} {checked : List PathBuf}
      (h : ∀ key ∈ w.cache, key ∈ checked) :
      PackageStep w (.retaining checked) { w with locked := false } .found
  /-- Another program modifies the prefixes. -/
  | modify {w : PackageWorld} {disk : CondaDisk} (h : w.Modifies disk) :
      PackageStep w .modifying { w with earlier := w.disks, disk := disk } .modified

/-- How calls start. -/
inductive PackageArrival (w : PackageWorld) : PackageCall → Prop
  | getPackageInfo (condaPrefix : PathBuf) :
      PackageArrival w
        (.fingerprinting condaPrefix w.now w.now (fingerprintFromPrefix condaPrefix))
  | find : PackageArrival w .finding
  | modify : PackageArrival w .modifying

/-- Nothing is cached, and the prefixes are as they may be. -/
structure PackageWorld.Initial (w : PackageWorld) : Prop where
  earlier : w.earlier = []
  cache : w.cache = ∅
  locked : w.locked = false

/-- Any number of calls in any interleaving. -/
def packageInfoCache : TaskSystem PackageWorld PackageCall Unit where
  init := PackageWorld.Initial
  spawn := PackageArrival
  step _ w call _ w' call' := PackageStep host w call w' call'

/-- The cache, the disk and the calls. -/
abbrev PackageState := TaskSystem.State PackageWorld PackageCall

end REnvTools.Model
