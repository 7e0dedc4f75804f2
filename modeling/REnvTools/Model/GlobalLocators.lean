import Mathlib.Data.Set.Basic
import REnvTools.Lib.Discovery
import REnvTools.Program.GlobalLocators

/-!
# The locators of global installations at work

One locator of global installations while any number of calls of `find` and `try_from` are under
way on it. `find` empties `reported_executables` and then goes through the executables that it has
found; that of `LinuxGlobalR` starts a thread for each directory. An executable is skipped if it
has been reported, and what is made of it is put into the map under all known executables before
it is reported. The map is asked under the lock, and what is asked of the machine in between may
be answered by another host each time.

SRC: crates/ret-linux-global-r/src/lib.rs:78-93, 148-189, crates/ret-nix/src/lib.rs:36-59, 119-145,
crates/ret-guix/src/lib.rs:36-59, 119-145, crates/ret-spack/src/lib.rs:39-62, 113-172
-/

set_option autoImplicit false

namespace REnvTools.Model

open Program Lib

/-- A locator of global installations. -/
structure GlobalLocator where
  kind : RInstallationKind
  /-- The executables that `find` leaves to others. -/
  ignores : PathBuf → Bool
  /-- The executables that each thread of `find` goes through. -/
  threads : GlobalHost → List (List PathBuf)
  /-- What `find` makes of a resolved executable. -/
  installationOf : GlobalHost → ResolvedRInstallation → Option RInstallation
  /-- `try_from`, where the map has this under the executable. -/
  tryFrom : GlobalHost → Option RInstallation → REnv → Option RInstallation

variable (platform : Platform)

/-- `LinuxGlobalR`. -/
def linuxGlobalLocator : GlobalLocator where
  kind := .linuxGlobal
  ignores := looksLikeHomebrewPath platform
  threads host := (linuxBinDirs platform host).map (host.findExecutables platform)
  installationOf host resolved := some (linuxGlobalInstallation platform host resolved)
  tryFrom := linuxGlobalTryFrom platform

/-- `Nix` and `Guix`, whose `try_from` does not ask the map. -/
def profileLocator (locator : ProfileLocator) : GlobalLocator where
  kind := locator.kind
  ignores _ := false
  threads host := [profileExecutables platform host locator]
  installationOf host resolved :=
    profileTryFrom platform host locator (resolved.toREnv (host.os platform))
  tryFrom host _ env := profileTryFrom platform host locator env

/-- `Spack`. -/
def spackLocator (locator : SpackLocator) : GlobalLocator where
  kind := .spack
  ignores _ := false
  threads host := [spackExecutables platform host locator]
  installationOf host resolved :=
    spackInstallationFromEnv platform host locator (resolved.toREnv (host.os platform))
  tryFrom host stored env := spackTryFrom platform host locator stored env

/-- The locators as the program makes them, each from what it was told when it was made. -/
inductive MadeLocator : GlobalLocator → Prop
  | linuxGlobal : MadeLocator (linuxGlobalLocator platform)
  | nix (start : GlobalHost) : MadeLocator (profileLocator platform (nix platform start))
  | guix (start : GlobalHost) : MadeLocator (profileLocator platform (guix platform start))
  | spack (start : GlobalHost) : MadeLocator (spackLocator platform (spack platform start))

namespace GlobalLocator

variable (locator : GlobalLocator)

/-- What `find` makes of an executable. -/
def installationFor (host : GlobalHost) (executable : PathBuf) : Option RInstallation :=
  (host.resolvedFrom platform executable).bind (locator.installationOf host)

/-- The threads of `find` and the calls of `try_from`, over a machine that is always one of these
hosts. -/
def discovery (hosts : Set GlobalHost) : Discovery PathBuf RInstallation where
  starts executables :=
    executables = [] ∨ ∃ host ∈ hosts, executables ∈ locator.threads host
  ignores := locator.ignores
  probe executable answer :=
    ∃ host ∈ hosts, answer = locator.installationFor platform host executable
  keys := insertedEntries

end GlobalLocator

/-- A thread of `find`, or a call of `try_from`. -/
abbrev GlobalThread := Discovery.Thread PathBuf RInstallation

/-- An installation for an executable. -/
abbrev GlobalReport := Discovery.Insertion PathBuf RInstallation

/-- The threads and the map. -/
abbrev GlobalState := Discovery.State PathBuf RInstallation

end REnvTools.Model
