import REnvTools.Model.CondaState
import REnvTools.Model.GlobalLocators
import REnvTools.Program.AllLocators

/-!
# The locators' `find` in a scan

What `find` of each locator is in one scan: which threads it starts, and what each of them looks at
and reports. Most locators go through what they list in the thread that asks them. `Conda` reads
the five places that name environments beside each other and then starts a thread for each prefix,
`LinuxGlobalR` one for each directory. These write into the map of the locator, so what one of them
reports depends on the others and on the calls of `try_from` that are under way. It is what the
thread has reported in a run of the locator's own machine.

SRC: crates/ret-conda/src/lib.rs:544-574, crates/ret-conda/src/environment_locations.rs:26-71,
crates/ret-linux-global-r/src/lib.rs:28-93
-/

set_option autoImplicit false

namespace REnvTools.Model

open Program Lib

/-- What a thread of `Conda::find` does for its prefix, with the managers that it reports first. -/
def condaPrefixCalls (managers : List EnvManager) (outcome : FindOutcome) : List FindCall :=
  .look :: managers.map (fun manager => .report (.manager manager)) ++
    match outcome with
    | .reported installation => [.look, .report (.installation installation)]
    | .notEnvironment | .known | .unresolved => [.look]

/-- `Conda::find`: the map is emptied, the five places are read, and there is a thread for each
prefix. -/
def condaFind (prefixes : List (List EnvManager × FindOutcome)) : ForkJoin FindCall :=
  .seq (.act .look)
    (.seq (.all (List.replicate 5 (.act .look)))
      (.all (prefixes.map fun thread => .acts (condaPrefixCalls thread.1 thread.2))))

/-- What a thread of `LinuxGlobalR::find` does: it looks for executables, and at each of them. -/
def binCalls (log : List (Discovery.Event PathBuf RInstallation)) : List FindCall :=
  .look :: log.flatMap fun event =>
    .look :: (event.report.map fun insertion => .report (.installation insertion.record)).toList

/-- `LinuxGlobalR::find`: the map is emptied, and there is a thread for each directory. -/
def linuxGlobalFind (logs : List (List (Discovery.Event PathBuf RInstallation))) :
    ForkJoin FindCall :=
  .seq (.act .look) (.all (logs.map fun log => .acts (binCalls log)))

/-- The calls of `Conda::find`. -/
theorem actions_condaFind (prefixes : List (List EnvManager × FindOutcome)) :
    (condaFind prefixes).actions = .look :: (List.replicate 5 .look ++
      prefixes.flatMap fun thread => condaPrefixCalls thread.1 thread.2) := by
  unfold condaFind
  simp only [ForkJoin.actions, ForkJoin.actions_all, List.flatMap_map, ForkJoin.actions_acts]
  rfl

/-- The calls of `LinuxGlobalR::find`. -/
theorem actions_linuxGlobalFind (logs : List (List (Discovery.Event PathBuf RInstallation))) :
    (linuxGlobalFind logs).actions = .look :: logs.flatMap binCalls := by
  unfold linuxGlobalFind
  simp only [ForkJoin.actions, ForkJoin.actions_all, List.flatMap_map, ForkJoin.actions_acts]
  rfl

variable (platform : Platform)

/-- The `find` of a locator in a scan, on a machine that lists this when `find` lists what it goes
through. A locator without threads reports what it finds on the machine as it is at some moment. -/
inductive FindsAs (listing : LocatorsHost) : CreatedLocator → ForkJoin FindCall → Prop
  | alone {locator : CreatedLocator} {calls : List FindCall} (hconda : locator.kind ≠ .conda)
      (hlinux : locator.kind ≠ .linuxGlobal)
      (hfound : ∀ installation, .report (.installation installation) ∈ calls →
        ∃ machine, installation ∈ locator.found machine) : FindsAs listing locator (.acts calls)
  | conda {s : TaskSystem.State CondaState CondaThread} (h : condaLocator.Reachable s)
      {prefixes : List (List EnvManager × FindOutcome)}
      (hprefixes : List.Forall₂ (fun condaPrefix thread =>
        ∃ clears, CondaThread.found condaPrefix thread.2 clears ∈ s.tasks)
          listing.condaEnvironmentPaths prefixes) :
      FindsAs listing (condaCreated platform) (condaFind prefixes)
  | linuxGlobal {hosts : Set GlobalHost} {s : GlobalState}
      (h : ((linuxGlobalLocator platform).discovery platform hosts).system.Reachable s)
      {logs : List (List (Discovery.Event PathBuf RInstallation))}
      (hended : ∀ log ∈ logs, Discovery.Thread.working [] .idle log ∈ s.tasks)
      (hlogs : List.Forall₂ (fun bin log => ∃ host ∈ hosts,
        log.map (·.item) = host.findExecutables platform bin)
          (linuxBinDirs platform listing.toGlobalHost) logs) :
      FindsAs listing (linuxGlobalCreated platform) (linuxGlobalFind logs)

/-- How many threads of a locator may be at work at the same time. -/
def findThreads (listing : LocatorsHost) : LocatorKind → ℕ
  | .conda => max 5 listing.condaEnvironmentPaths.length
  | .linuxGlobal => max 1 (linuxBinDirs platform listing.toGlobalHost).length
  | _ => 1

/-- The locators of a scan are those that were made, and each of them finds what it finds in this
scan. -/
def ScansWith (listing : LocatorKind → LocatorsHost) (created : List CreatedLocator)
    (host : ScanHost) : Prop :=
  List.Forall₂ (fun locator scanned => scanned.kind = locator.kind ∧
      scanned.supportedCategories = locator.supportedCategories ∧
      FindsAs platform (listing locator.kind) locator scanned.find)
    created host.locators

end REnvTools.Model
