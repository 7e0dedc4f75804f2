import REnvTools.Lib.Machine
import REnvTools.Lib.Pool
import REnvTools.Lib.TaskPool
import REnvTools.Lib.TreeWalk
import REnvTools.Lib.SortDedup
import REnvTools.Lib.StableSort
import REnvTools.Lib.KeyedStore
import REnvTools.Lib.ValidatedMemo
import REnvTools.Program.Path
import REnvTools.Program.RInstallation
import REnvTools.Program.Configuration
import REnvTools.Program.Coordinator
import REnvTools.Model.Server
import REnvTools.Analysis.Coordination
import REnvTools.Analysis.Responses
import REnvTools.Analysis.Transactions
import REnvTools.Analysis.Fencing
import REnvTools.Analysis.Freshness
import REnvTools.Program.Installation
import REnvTools.Program.Reporter
import REnvTools.Analysis.Merging
import REnvTools.Analysis.Builder
import REnvTools.Model.Reporters
import REnvTools.Analysis.ReportStore
import REnvTools.Analysis.HashOrder
import REnvTools.Analysis.FieldChoice
import REnvTools.Analysis.MergedFields
import REnvTools.Analysis.Coherence
import REnvTools.Analysis.ReportOrder
import REnvTools.Analysis.KindFilter
import REnvTools.Program.Cache
import REnvTools.Model.ResolutionCache
import REnvTools.Analysis.CacheContents
import REnvTools.Analysis.CacheFreshness
import REnvTools.Analysis.CacheDirectory
import REnvTools.Model.CacheEntry
import REnvTools.Analysis.CacheEntry
import REnvTools.Lib.ShellWords
import REnvTools.Lib.Utf8
import REnvTools.Program.Shell
import REnvTools.Program.Spack
import REnvTools.Analysis.Quoting
import REnvTools.Program.Framing
import REnvTools.Program.Dispatch
import REnvTools.Analysis.HeaderLines
import REnvTools.Analysis.Framing
import REnvTools.Program.BufRead
import REnvTools.Analysis.HeaderBudget
import REnvTools.Analysis.Chunks
import REnvTools.Analysis.Dispatch
import REnvTools.Program.Text
import REnvTools.Program.Glob
import REnvTools.Analysis.SearchPaths
import REnvTools.Analysis.Braces
import REnvTools.Lib.GraphSearch
import REnvTools.Program.DirectoryTree
import REnvTools.Program.Search
import REnvTools.Analysis.Search
import REnvTools.Program.REnv
import REnvTools.Program.Pixi
import REnvTools.Program.Conda
import REnvTools.Analysis.Ownership
import REnvTools.Program.Locators
import REnvTools.Analysis.Resolution
import REnvTools.Analysis.ScriptAccount
import REnvTools.Analysis.ScriptPaths
import REnvTools.Analysis.Spack
import REnvTools.Analysis.StoredResolutions
import REnvTools.Model.Probes
import REnvTools.Analysis.PlatformArch
import REnvTools.Analysis.Probes
import REnvTools.Model.CacheClearing
import REnvTools.Analysis.CacheClearing
import REnvTools.Lib.Reading
import REnvTools.Program.CondaPackages
import REnvTools.Lib.Snapshots
import REnvTools.Model.PackageInfoCache
import REnvTools.Model.CondaLocator
import REnvTools.Analysis.WarmCalls
import REnvTools.Analysis.PackageReadings
import REnvTools.Analysis.PackageInfo
import REnvTools.Program.RVersions
import REnvTools.Analysis.RVersions
import REnvTools.Lib.PushNew
import REnvTools.Program.Executables
import REnvTools.Analysis.Executables
import REnvTools.Program.CondaEnvironments
import REnvTools.Analysis.CondaEnvironments
import REnvTools.Model.SearchLocations
import REnvTools.Analysis.SearchLocations
import REnvTools.Model.RequestLimit
import REnvTools.Analysis.RequestLimit
import REnvTools.Lib.Words
import REnvTools.Program.CondaEnvName
import REnvTools.Analysis.CondaEnvName
import REnvTools.Analysis.LinkedPackage
import REnvTools.Analysis.LocatorCache
import REnvTools.Lib.ForkJoin
import REnvTools.Program.Scan
import REnvTools.Analysis.ScanRuns
import REnvTools.Analysis.ScanProgress
import REnvTools.Analysis.ScanStore
import REnvTools.Lib.Markers
import REnvTools.Program.Metadata
import REnvTools.Program.Details
import REnvTools.Analysis.BinaryHeader
import REnvTools.Analysis.LauncherHome
import REnvTools.Analysis.ProbeOutput
import REnvTools.Analysis.Details
import REnvTools.Lib.ShellScripts
import REnvTools.Program.Modules
import REnvTools.Program.RVersionsLocator
import REnvTools.Analysis.StartupScripts
import REnvTools.Analysis.Modules
import REnvTools.Model.CondaState
import REnvTools.Analysis.CondaState
import REnvTools.Program.CondaManagers
import REnvTools.Analysis.CondaCreator
import REnvTools.Model.CondaManagers
import REnvTools.Analysis.CondaManagers
import REnvTools.Program.CondaLocations
import REnvTools.Analysis.CondaLocations
import REnvTools.Lib.Discovery
import REnvTools.Program.GlobalLocators
import REnvTools.Model.GlobalLocators
import REnvTools.Analysis.GlobalLocators
import REnvTools.Program.InstallerLocators
import REnvTools.Program.AllLocators
import REnvTools.Analysis.AllLocators
import REnvTools.Model.LocatorFinds
import REnvTools.Analysis.LocatorFinds
import REnvTools.Analysis.KindSearch
