import REnvTools.Lib.ShellWords
import REnvTools.Lib.Utf8
import REnvTools.Program.CondaPackages
import REnvTools.Program.Locators

/-!
# The metadata of a runtime

What is found out about an R executable without starting R: the home that its launcher or the
layout around it gives, the version and platform in a `DESCRIPTION`, and the architecture in the
header of a binary. A file is its bytes; environment variables are asked of the host.

SRC: crates/ret-r-utils/src/metadata.rs, crates/ret-core/src/arch.rs:52-59
-/

set_option autoImplicit false

namespace REnvTools.Program

open Lib

/-! ## Text -/

/-- `str::strip_prefix`. -/
def stripPrefix (pattern s : List Char) : Option (List Char) :=
  if pattern.isPrefixOf s then some (s.drop pattern.length) else none

/-- `str::strip_suffix`. -/
def stripSuffix (pattern s : List Char) : Option (List Char) :=
  if pattern.isSuffixOf s then some (s.take (s.length - pattern.length)) else none

/-! ## Architectures -/

/-- `Architecture::from_serialized_str`. -/
def Architecture.fromSerializedStr (value : String) : Option Architecture :=
  match toAsciiLowercase value with
  | "arm64" | "aarch64" => some .arm64
  | "x64" | "x86_64" | "amd64" => some .x64
  | "x86" | "i386" | "i686" => some .x86
  | _ => none

/-- `architecture`: the first part of a platform triple. -/
def architecture (platform : List Char) : Option Architecture :=
  ((platform.splitOn '-').head?).bind fun arch =>
    Architecture.fromSerializedStr (toAsciiLowercase (String.ofList arch))

/-- `read_exact` at a position of a file. -/
def readExactAt (bytes : List UInt8) (position count : ℕ) : Option (List UInt8) :=
  let part := (bytes.drop position).take count
  if part.length = count then some part else none

/-- `from_le_bytes`. -/
def fromLeBytes (bytes : List UInt8) : ℕ :=
  bytes.foldr (fun byte value => byte.toNat + 256 * value) 0

/-- `from_be_bytes`. -/
def fromBeBytes (bytes : List UInt8) : ℕ := fromLeBytes bytes.reverse

/-- The machine of an ELF header. -/
def elfMachine (machine : ℕ) : Option Architecture :=
  match machine with
  | 3 => some .x86
  | 62 => some .x64
  | 183 => some .arm64
  | _ => none

/-- The processor of a Mach-O header. -/
def machoCpu (cpu : ℕ) : Option Architecture :=
  match cpu with
  | 7 => some .x86
  | 0x01000007 => some .x64
  | 0x0100000c => some .arm64
  | _ => none

/-- The machine of a PE header. -/
def peMachine (machine : ℕ) : Option Architecture :=
  match machine with
  | 0x014c => some .x86
  | 0x8664 => some .x64
  | 0xaa64 => some .arm64
  | _ => none

/-- The part of `binary_architecture` that follows the offset to a PE header. -/
def peArchitecture (bytes : List UInt8) : Option Architecture :=
  match readExactAt bytes 0x3c 4 with
  | none => none
  | some offset =>
    match readExactAt bytes (fromLeBytes offset) 6 with
    | none => none
    | some pe =>
      if pe.take 4 = [0x50, 0x45, 0, 0] then peMachine (fromLeBytes (pe.drop 4)) else none

/-- `binary_architecture`, of the bytes of the file. -/
def binaryArchitecture (bytes : List UInt8) : Option Architecture :=
  match readExactAt bytes 0 20 with
  | none => none
  | some header =>
    let magic := header.take 4
    if magic = [0x7f, 0x45, 0x4c, 0x46] then
      let machine := (header.drop 18).take 2
      elfMachine (if header[5]? = some 2 then fromBeBytes machine else fromLeBytes machine)
    else
      let cpu := (header.drop 4).take 4
      if magic = [0xcf, 0xfa, 0xed, 0xfe] ∨ magic = [0xce, 0xfa, 0xed, 0xfe] then
        machoCpu (fromLeBytes cpu)
      else if magic = [0xfe, 0xed, 0xfa, 0xcf] ∨ magic = [0xfe, 0xed, 0xfa, 0xce] then
        machoCpu (fromBeBytes cpu)
      else if header.take 2 = [0x4d, 0x5a] then peArchitecture bytes
      else none

/-! ## The machine -/

/-- What is asked of the machine about a runtime. `run` gives the output of a process that ends
in time and without a failure. -/
structure RuntimeHost where
  os : Os
  macos : Bool
  pathFrom : String → PathBuf
  var : String → Option String
  isFile : PathBuf → Bool
  read : PathBuf → Option (List UInt8)
  run : PathBuf → List String → Option String

variable (host : RuntimeHost)

/-- `Path::is_absolute`. -/
def PathBuf.isAbsolute (windows : Bool) (path : PathBuf) : Bool :=
  if windows then
    match path.components with
    | .drive _ :: .rootDir :: _ => true
    | _ => false
  else decide (path.components.head? = some .rootDir)

/-- `PathBuf::from` on Unix. -/
def unixPath (text : String) : PathBuf :=
  let pieces := text.toList.splitOn '/'
  let start : List Component :=
    if text.toList.head? = some '/' then [.rootDir]
    else if pieces.head? = some ['.'] then [.curDir]
    else []
  ⟨start ++ pieces.filterMap fun piece =>
    if piece = [] ∨ piece = ['.'] then none
    else if piece = ['.', '.'] then some .parentDir
    else some (.normal (String.ofList piece))⟩

/-- The name of an executable is that of an `Rscript`. -/
def isRscript (name : String) : Bool := "rscript".toList.isPrefixOf (toAsciiLowercase name).toList

/-! ## The home of a launcher -/

/-- `LauncherHome`. -/
inductive LauncherHome
  | literal (home : PathBuf)
  | query
  deriving DecidableEq

/-- The values that a launcher's script assigns to `R_HOME_DIR`. -/
def assignments (script : String) : List (List Char) :=
  (lines script.toList).filterMap fun line => stripPrefix "R_HOME_DIR=".toList (trim line)

/-- The value without the quotes around it. -/
def unquote (value : List Char) : List Char :=
  (((stripPrefix ['"'] value).bind (stripSuffix ['"'])).or
    ((stripPrefix ['\''] value).bind (stripSuffix ['\'']))).getD value

/-- The part of `launcher_home` that reads the script. -/
def scriptHome (script : String) : LauncherHome :=
  if !textContains script "Shell wrapper for R executable" then .query
  else
    match assignments script with
    | [] => .query
    | value :: others =>
      -- elsewhere than on macOS the launcher may choose between two homes
      if !host.macos && !others.isEmpty then .query
      else
        let value := unquote (trim value)
        if value.contains '$' || value.contains ShellWords.backquote then .query
        else
          let home := host.pathFrom (String.ofList value)
          if home.isAbsolute host.os.windows then .literal home else .query

/-- `launcher_home`. -/
def launcherHome (executable : PathBuf) : Option LauncherHome :=
  match (if host.os.windows then some (host.os.normCase executable)
    else host.os.canonicalize executable) with
  | none => none
  | some executable =>
    match executable.fileName with
    | none => none
    | some name =>
      match (if isRscript name then (host.var "RHOME").filter (· ≠ "") else none) with
      | some home => some (.literal (host.pathFrom home))
      | none =>
        if host.os.windows then none
        else
          let siblingR := executable.setFileName "R"
          let launcher := if isRscript name && host.isFile siblingR then siblingR else executable
          match host.read launcher with
          | some (0x23 :: 0x21 :: script) => (utf8Text script).map (scriptHome host)
          | _ => none

/-- `orthogonal`, of the components of the home: as in `inferOrthogonal`, a slash at its end and a
doubled slash are lost (the text `/L/R.framework/Versions/` is orthogonal, the components are
not). -/
def orthogonal (os : Os) (home : PathBuf) : Option Bool :=
  let home := os.toStringLossy home
  if textContains home "R.framework" then
    some (textContains home "R.framework/Versions/" &&
      !textContains home "R.framework/Versions/Current/")
  else none

/-! ## The layout of a home -/

/-- The `DESCRIPTION` of a package in the library of a home. -/
def descriptionOf (home : PathBuf) (package : String) : PathBuf :=
  ((home.join "library").join package).join "DESCRIPTION"

/-- `has_r_layout`. -/
def hasRLayout (home : PathBuf) : Bool :=
  host.isFile (descriptionOf home "base") || host.isFile (descriptionOf home "utils")

/-- The directory is one of those that Windows has for an architecture. -/
def isArchDirectory (path : PathBuf) : Bool :=
  ["x64", "i386", "aarch64", "arm64"].any path.endsWith

/-- `layout_home`. -/
def layoutHome (executable : PathBuf) : Option PathBuf :=
  match (if host.os.windows then some (host.os.normCase executable)
    else host.os.canonicalize executable) with
  | none => none
  | some executable =>
    match executable.parent with
    | none => none
    | some parent =>
      match (if isArchDirectory parent then parent.parent else some parent) with
      | none => none
      | some bin =>
        if !bin.endsWith "bin" then none
        else
          match bin.parent with
          | none => none
          | some home =>
            [home, (home.join "lib").join "R", (home.join "lib64").join "R"].find?
              (hasRLayout host)

/-! ## Versions and architectures -/

/-- `RMetadata`. -/
structure RMetadata where
  version : String
  arch : Architecture
  files : List PathBuf
  deriving DecidableEq

/-- `Path::join` with the text of a relative path, in which a first `.` is lost. -/
def joinRelative (path : PathBuf) (text : String) : PathBuf :=
  ⟨path.components ++ (host.pathFrom text).components.filter fun c =>
    match c with
    | .curDir => false
    | .drive _ | .rootDir | .parentDir | .normal _ => true⟩

/-- The binaries whose headers `read_metadata` looks at. -/
def binariesOf (home executable : PathBuf) : Option (List PathBuf) :=
  if host.os.windows then
    let bin := home.join "bin"
    match executable.parent with
    | none => none
    | some parent =>
      if isArchDirectory parent then some [parent.join "R.dll", executable]
      else some [(bin.join "x64").join "R.dll", bin.join "R.dll"]
  else
    let arch := ((host.var "R_ARCH").getD "").toList.dropWhile (· = '/')
    let exec := (home.join "bin").join "exec"
    some [(joinRelative host exec (String.ofList arch)).join "R"]

/-- The `Built` field of a `DESCRIPTION`: the version and the platform. -/
def builtField (content : String) : Option (List Char × List Char) :=
  match (lines content.toList).findSome? (stripPrefix "Built:".toList) with
  | none => none
  | some built =>
    let fields := (built.splitOn ';').map trim
    match (fields.head?).bind (stripPrefix "R ".toList) with
    | none => none
    | some version =>
      let version := trim version
      if version.head?.any Char.isDigit then some (version, (fields[1]?).getD []) else none

/-- `read_metadata`. -/
def readMetadata (home executable : PathBuf) : Option RMetadata :=
  match (["utils", "base"].map (descriptionOf home)).find? host.isFile with
  | none => none
  | some description =>
    match ((host.read description).bind utf8Text).bind builtField with
    | none => none
    | some (version, platform) =>
      match binariesOf host home executable with
      | none => none
      | some binaries =>
        let detected := binaries.findSome? fun binary =>
          ((host.read binary).bind binaryArchitecture).map fun arch => (arch, binary)
        match detected with
        | some (arch, binary) => some ⟨String.ofList version, arch, [description, binary]⟩
        | none =>
          (architecture platform).map fun arch => ⟨String.ofList version, arch, [description]⟩

end REnvTools.Program
