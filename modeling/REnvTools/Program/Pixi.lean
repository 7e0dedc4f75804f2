import REnvTools.Program.DirectoryTree
import REnvTools.Program.REnv

/-!
# The Pixi locator

SRC: crates/ret-pixi/src/lib.rs:29-80, 105-158
-/

set_option autoImplicit false

namespace REnvTools.Program

/-- What the Pixi locator asks of the machine: the tree, the texts of files, the executables
below a directory, whether a path is a symbolic link, and `Architecture::infer_from_path`. -/
structure PixiHost where
  os : Os
  tree : DirectoryTree
  readToString : PathBuf → Option String
  findExecutables : PathBuf → List PathBuf
  isSymlink : PathBuf → Bool
  inferFromPath : PathBuf → Architecture

variable (host : PixiHost)

/-- `infer_manifest_path`. -/
def inferManifestPath (pixiPrefix : PathBuf) : Option PathBuf := do
  let envsDir ← pixiPrefix.parent
  if (← envsDir.fileName) ≠ "envs" then none
  else
    let pixiDir ← envsDir.parent
    if (← pixiDir.fileName) ≠ ".pixi" then none
    else
      let projectRoot ← pixiDir.parent
      let pixiToml := projectRoot.join "pixi.toml"
      let pyproject := projectRoot.join "pyproject.toml"
      if host.tree.isFile pixiToml then some pixiToml
      else if host.tree.isFile pyproject &&
          ((host.readToString pyproject).map (textContains · "[tool.pixi]")).getD false then
        some pyproject
      else none

/-- `get_pixi_prefix`. -/
def getPixiPrefix (env : REnv) : Option PathBuf :=
  ((env.executable.ancestors.drop 1).find? host.tree.isPixiEnv).or
    (env.home.bind fun home => (home.ancestors.drop 1).find? host.tree.isPixiEnv)

/-- `Pixi::try_from`. -/
def pixiTryFrom (env : REnv) : Option RInstallation := do
  let version ← env.version
  let pixiPrefix ← getPixiPrefix host env
  if !host.tree.isPixiEnv pixiPrefix then none
  else
    let name := pixiPrefix.fileName.getD ""
    let extraExecutables := host.findExecutables pixiPrefix
    let symlinks := env.symlinks.getD [] ++
      filterSymlinkPaths host.os host.isSymlink extraExecutables
    let knownExecutables := env.knownExecutables.getD [] ++ extraExecutables
    some (RInstallationBuilder.build host.os
      { RInstallationBuilder.new (some .pixi) with
        name := some name
        executable := some (host.os.normCase env.executable)
        home := env.home.map host.os.normCase
        orthogonal := env.orthogonal
        version := some version
        arch := env.arch.or (some (host.inferFromPath env.executable))
        knownExecutables := some (normalizePaths host.os knownExecutables)
        symlinks := some (normalizePaths host.os symlinks)
        locatorMetadata :=
          some (.pixi pixiPrefix (inferManifestPath host pixiPrefix) (some name)) })

end REnvTools.Program
