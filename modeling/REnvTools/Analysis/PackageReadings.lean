import REnvTools.Model.PackageInfoCache

/-!
# What the readings of `conda-meta` show

A fingerprint tells of each watched file, the history and the package files, which
fingerprint it had when it was read (`FingerprintRead`). If the directory stood still during
the reading, then no watched file is left out (`FingerprintRead.complete`). A parse asks for
the listing and for watched files only, so directories that agree in these (`Alike`) have the
same parse (`parse_congr`); and it has one result, in whatever order the directory is listed
(`parse_unique`).
-/

set_option autoImplicit false

namespace REnvTools.Analysis

open Program Lib Model Reading

/-! ## Watched files -/

/-- The files whose fingerprints are taken. -/
def Watched (name : String) : Prop := name = "history" ∨ isRBasePackage name = true

/-- The fingerprint of the environment holds this one, of the file of this name. -/
def Shows (environment : CondaEnvironmentFingerprint) (name : String)
    (fingerprint : FileFingerprint) : Prop :=
  name = "history" ∧ environment.history = some fingerprint ∨
    isRBasePackage name = true ∧ ∃ path, (path, fingerprint) ∈ environment.rBasePackages ∧
      path.fileName = some name

/-- The questions that are not about the text of a file. -/
def AboutFingerprints : MetaQuery → Prop
  | .readToString _ => False
  | _ => True

/-- The listing and the texts of watched files. -/
def AboutTexts : MetaQuery → Prop
  | .readDir => True
  | .readToString name => Watched name
  | _ => False

/-- What the names of the directory alone say of an answer. -/
def Consistent (names : String → Option Bool) : (query : MetaQuery) → MetaAnswer query → Prop
  | .pathExists name, answer => answer = true ↔ names name = some true
  | .fingerprint name, answer => answer.isSome = true ↔ names name = some true
  | .readDir, some listed => ∀ name, name ∈ listed ↔ (names name).isSome = true
  | _, _ => True

variable {condaPrefix : PathBuf} {environment : CondaEnvironmentFingerprint}
  {exchanges : List (Exchange MetaQuery MetaAnswer)} {names : String → Option Bool}
  {elsewhere : String → Option (Option String)} {condaMeta condaMeta' : CondaMeta}

/-- INTERNAL: the file in `conda-meta` has the name it was given. -/
@[simp] theorem condaMetaPath_fileName (condaPrefix : PathBuf) (name : String) :
    (condaMetaPath condaPrefix name).fileName = some name := by
  simp [condaMetaPath, PathBuf.join, PathBuf.fileName]

/-- INTERNAL: a file is there if the directory has it under the names of files. -/
theorem fileAt_isSome (name : String) :
    (fileAt (some condaMeta) name).isSome = true ↔ condaMeta.directory.2 name = some true := by
  simp only [fileAt, Option.bind_some, CondaMeta.directory]
  cases h : condaMeta.entries.lookup name with
  | none => simp
  | some entry => cases entry <;> simp

/-- The answers of a directory agree with its names. -/
theorem consistent_of_answers {query : MetaQuery} {answer : MetaAnswer query}
    (h : MetaAnswers elsewhere (some condaMeta) query answer) :
    Consistent condaMeta.directory.2 query answer := by
  cases query with
  | pathExists name =>
    obtain rfl : answer = (fileAt (some condaMeta) name).isSome := h
    exact fileAt_isSome name
  | fingerprint name =>
    obtain rfl : answer = (fileAt (some condaMeta) name).map (·.fingerprint) := h
    rw [Consistent, Option.isSome_map]
    exact fileAt_isSome name
  | readDir =>
    cases answer with
    | none => trivial
    | some listed =>
      obtain ⟨present, hpresent, -, hlisted⟩ := h
      obtain rfl := Option.some.inj hpresent
      intro name
      rw [hlisted, CondaMeta.directory, Option.isSome_map, Finmap.lookup_isSome]
  | condaMetaFingerprint => trivial
  | readToString name => trivial

/-! ## Reading a fingerprint -/

/-- What the reading of package files shows. -/
structure PackagesRead (condaPrefix : PathBuf) (names : List String)
    (exchanges : List (Exchange MetaQuery MetaAnswer))
    (packages : List (PathBuf × FileFingerprint)) : Prop where
  of_mem : ∀ path fingerprint, (path, fingerprint) ∈ packages →
    ∃ name ∈ names, path = condaMetaPath condaPrefix name ∧
      ⟨.fingerprint name, some fingerprint⟩ ∈ exchanges
  mem : ∀ name fingerprint, ⟨.fingerprint name, some fingerprint⟩ ∈ exchanges →
    name ∈ names ∧ (condaMetaPath condaPrefix name, fingerprint) ∈ packages
  asked : ∀ name ∈ names, ∃ answer, ⟨.fingerprint name, answer⟩ ∈ exchanges

/-- Induction on the list of files. -/
theorem fingerprintPackages_read {files : List String}
    {packages : List (PathBuf × FileFingerprint)}
    (h : Follows (fingerprintPackages condaPrefix files) exchanges (.done packages)) :
    PackagesRead condaPrefix files exchanges packages := by
  induction files generalizing exchanges packages with
  | nil =>
    obtain ⟨rfl, rfl⟩ := follows_done h
    exact ⟨by simp, by simp, by simp⟩
  | cons file files ih =>
    obtain ⟨value, exchanges', rfl, hrest⟩ := follows_ask_done h
    obtain ⟨rest, hfollows, rfl⟩ := follows_map_done hrest
    have hread := ih hfollows
    refine ⟨?_, ?_, ?_⟩
    · intro path fingerprint hmem
      obtain hmem | hmem := List.mem_append.mp hmem
      · obtain ⟨value, rfl, hpair⟩ := Option.map_eq_some_iff.mp (Option.mem_toList.mp hmem)
        cases hpair
        exact ⟨file, List.mem_cons_self, rfl, List.mem_cons_self⟩
      · obtain ⟨name, hname, hpath, hexchange⟩ := hread.of_mem path fingerprint hmem
        exact ⟨name, List.mem_cons_of_mem _ hname, hpath, List.mem_cons_of_mem _ hexchange⟩
    · intro name fingerprint hmem
      obtain heq | hmem := List.mem_cons.mp hmem
      · cases heq
        exact ⟨List.mem_cons_self, List.mem_append_left _ (by simp)⟩
      · obtain ⟨hname, hpackage⟩ := hread.mem name fingerprint hmem
        exact ⟨List.mem_cons_of_mem _ hname, List.mem_append_right _ hpackage⟩
    · intro name hname
      obtain rfl | hname := List.mem_cons.mp hname
      · exact ⟨value, List.mem_cons_self⟩
      · obtain ⟨answer, hexchange⟩ := hread.asked name hname
        exact ⟨answer, List.mem_cons_of_mem _ hexchange⟩

/-- What the reading of a fingerprint shows. -/
structure FingerprintRead (exchanges : List (Exchange MetaQuery MetaAnswer))
    (environment : CondaEnvironmentFingerprint) : Prop where
  shown : ∀ name fingerprint, Shows environment name fingerprint →
    ⟨.fingerprint name, some fingerprint⟩ ∈ exchanges
  noted : ∀ name fingerprint, ⟨.fingerprint name, some fingerprint⟩ ∈ exchanges →
    Shows environment name fingerprint
  history : ⟨.pathExists "history", false⟩ ∈ exchanges ∨
    ∃ fingerprint, Shows environment "history" fingerprint
  listed : ∃ listed, ⟨.readDir, some listed⟩ ∈ exchanges ∧
    ∀ name ∈ listed, isRBasePackage name = true →
      ∃ answer, ⟨.fingerprint name, answer⟩ ∈ exchanges

/-- INTERNAL: the part after the history; the directory comes last. -/
theorem fingerprintEntries_read {history : Option FileFingerprint}
    (h : Follows (fingerprintEntries condaPrefix history) exchanges (.done (some environment))) :
    ∃ listed read packages,
      exchanges = ⟨.readDir, some listed⟩ :: read ++
        [⟨.condaMetaFingerprint, some environment.condaMeta⟩] ∧
      PackagesRead condaPrefix (listed.filter isRBasePackage) read packages ∧
      environment.history = history ∧
      ∀ package, package ∈ environment.rBasePackages ↔ package ∈ packages := by
  obtain ⟨entries, rest, rfl, hrest⟩ := follows_ask_done h
  cases entries with
  | none =>
    obtain ⟨-, hnone⟩ := follows_done hrest
    cases hnone
  | some listed =>
    obtain ⟨read, last, packages, rfl, hread, hlast⟩ := follows_bind_done hrest
    obtain ⟨value, rest, rfl, hdone⟩ := follows_ask_done hlast
    obtain ⟨rfl, hresult⟩ := follows_done hdone
    obtain ⟨fingerprint, rfl, rfl⟩ := Option.map_eq_some_iff.mp hresult.symm
    exact ⟨listed, read, packages, rfl, fingerprintPackages_read hread, rfl,
      fun package => List.mem_insertionSort _⟩

/-- INTERNAL: the packages of a fingerprint are the package files that were read. -/
theorem shows_package_iff {listed : List String} {read : List (Exchange MetaQuery MetaAnswer)}
    {packages : List (PathBuf × FileFingerprint)}
    (hread : PackagesRead condaPrefix (listed.filter isRBasePackage) read packages)
    (hpackages : ∀ package, package ∈ environment.rBasePackages ↔ package ∈ packages)
    (name : String) (fingerprint : FileFingerprint) :
    (isRBasePackage name = true ∧ ∃ path, (path, fingerprint) ∈ environment.rBasePackages ∧
      path.fileName = some name) ↔ ⟨.fingerprint name, some fingerprint⟩ ∈ read := by
  constructor
  · rintro ⟨-, path, hmem, hname⟩
    obtain ⟨name', -, rfl, hexchange⟩ := hread.of_mem path fingerprint ((hpackages _).mp hmem)
    rw [condaMetaPath_fileName, Option.some.injEq] at hname
    rwa [← hname]
  · intro hexchange
    obtain ⟨hname, hmem⟩ := hread.mem name fingerprint hexchange
    exact ⟨(List.mem_filter.mp hname).2, _, (hpackages _).mpr hmem, condaMetaPath_fileName _ _⟩

/-- INTERNAL: the exchanges about the history, then those of the listing. -/
theorem fingerprintRead_of_parts {history : Option FileFingerprint}
    {first : List (Exchange MetaQuery MetaAnswer)} {listed : List String}
    {read : List (Exchange MetaQuery MetaAnswer)} {packages : List (PathBuf × FileFingerprint)}
    (hread : PackagesRead condaPrefix (listed.filter isRBasePackage) read packages)
    (hpackages : ∀ package, package ∈ environment.rBasePackages ↔ package ∈ packages)
    (hhistory : environment.history = history)
    (hfirst : ∀ name fingerprint, ⟨.fingerprint name, some fingerprint⟩ ∈ first ↔
      name = "history" ∧ history = some fingerprint)
    (hexists : ⟨.pathExists "history", false⟩ ∈ first ∨ ∃ fingerprint, history = some fingerprint) :
    FingerprintRead (first ++ ⟨.readDir, some listed⟩ :: read) environment := by
  have hshows : ∀ name fingerprint, Shows environment name fingerprint ↔
      ⟨.fingerprint name, some fingerprint⟩ ∈ first ++ ⟨.readDir, some listed⟩ :: read := by
    intro name fingerprint
    rw [Shows, shows_package_iff hread hpackages, hhistory, ← hfirst, List.mem_append,
      List.mem_cons]
    simp
  refine ⟨fun name fingerprint => (hshows name fingerprint).mp,
    fun name fingerprint => (hshows name fingerprint).mpr, ?_, listed, by simp, ?_⟩
  · obtain habsent | ⟨fingerprint, hsome⟩ := hexists
    · exact .inl (List.mem_append_left _ habsent)
    · exact .inr ⟨fingerprint, .inl ⟨rfl, hhistory.trans hsome⟩⟩
  · intro name hname hpackage
    obtain ⟨answer, hexchange⟩ := hread.asked name (List.mem_filter.mpr ⟨hname, hpackage⟩)
    exact ⟨answer, List.mem_append_right _ (List.mem_cons_of_mem _ hexchange)⟩

/-- **The exchanges of a fingerprint**, of which the one about the directory is the last. -/
theorem fingerprintFromPrefix_read
    (h : Follows (fingerprintFromPrefix condaPrefix) exchanges (.done (some environment))) :
    ∃ earlier, exchanges = earlier ++ [⟨.condaMetaFingerprint, some environment.condaMeta⟩] ∧
      FingerprintRead earlier environment := by
  obtain ⟨present, rest, rfl, hrest⟩ := follows_ask_done h
  cases present with
  | true =>
    obtain ⟨value, rest, rfl, hentries⟩ := follows_ask_done hrest
    cases value with
    | none =>
      obtain ⟨-, hnone⟩ := follows_done hentries
      cases hnone
    | some fingerprint =>
      obtain ⟨listed, read, packages, rfl, hread, hhistory, hpackages⟩ :=
        fingerprintEntries_read hentries
      refine ⟨[⟨.pathExists "history", true⟩, ⟨.fingerprint "history", some fingerprint⟩] ++
        ⟨.readDir, some listed⟩ :: read, by simp, ?_⟩
      refine fingerprintRead_of_parts hread hpackages hhistory ?_ (.inr ⟨_, rfl⟩)
      intro name value
      simp only [List.mem_cons, List.not_mem_nil, or_false]
      constructor
      · rintro (hfirst | hfirst)
        · cases hfirst
        · cases hfirst
          exact ⟨rfl, rfl⟩
      · rintro ⟨rfl, hvalue⟩
        cases hvalue
        exact .inr rfl
  | false =>
    obtain ⟨listed, read, packages, rfl, hread, hhistory, hpackages⟩ :=
      fingerprintEntries_read hrest
    refine ⟨[⟨.pathExists "history", false⟩] ++ ⟨.readDir, some listed⟩ :: read, by simp, ?_⟩
    refine fingerprintRead_of_parts hread hpackages hhistory ?_ (.inl (by simp))
    intro name value
    simp only [List.mem_cons, List.not_mem_nil, or_false]
    constructor
    · rintro hfirst
      cases hfirst
    · rintro ⟨-, hvalue⟩
      cases hvalue

/-- **No watched file is left out** of a fingerprint that was read while the names of the
directory stood still. -/
theorem FingerprintRead.complete (h : FingerprintRead exchanges environment)
    (hnames : ∀ exchange ∈ exchanges, Consistent names exchange.query exchange.answer)
    {name : String} (hwatched : Watched name) (hname : names name = some true) :
    ∃ fingerprint, Shows environment name fingerprint := by
  obtain rfl | hpackage := hwatched
  · obtain habsent | hshows := h.history
    · have hfalse : false = true ↔ names "history" = some true := hnames _ habsent
      exact absurd (hfalse.mpr hname) Bool.false_ne_true
    · exact hshows
  · obtain ⟨listed, hlisted, hasked⟩ := h.listed
    have hmem : name ∈ listed ↔ (names name).isSome = true := hnames _ hlisted name
    obtain ⟨answer, hexchange⟩ := hasked name (hmem.mpr (by rw [hname]; rfl)) hpackage
    have hsome : answer.isSome = true ↔ names name = some true := hnames _ hexchange
    obtain ⟨fingerprint, rfl⟩ := Option.isSome_iff_exists.mp (hsome.mpr hname)
    exact ⟨fingerprint, h.noted name fingerprint hexchange⟩

/-! ## What is asked -/

/-- The fingerprints of the packages ask for fingerprints only. -/
theorem fingerprintPackages_asks (condaPrefix : PathBuf) (files : List String) :
    (fingerprintPackages condaPrefix files).Asks AboutFingerprints := by
  induction files with
  | nil => trivial
  | cons file files ih => exact ⟨trivial, fun value => ih.map⟩

/-- The entries of a fingerprint ask for fingerprints only. -/
theorem fingerprintEntries_asks (condaPrefix : PathBuf) (history : Option FileFingerprint) :
    (fingerprintEntries condaPrefix history).Asks AboutFingerprints := by
  refine ⟨trivial, fun entries => ?_⟩
  cases entries with
  | none => trivial
  | some entries =>
    refine (fingerprintPackages_asks condaPrefix _).bind fun packages => ?_
    exact ⟨trivial, fun condaMeta => trivial⟩

/-- A fingerprint asks for no text. -/
theorem fingerprintFromPrefix_asks (condaPrefix : PathBuf) :
    (fingerprintFromPrefix condaPrefix).Asks AboutFingerprints := by
  refine ⟨trivial, fun present => ?_⟩
  cases present with
  | true =>
    refine ⟨trivial, fun value => ?_⟩
    cases value with
    | none => trivial
    | some history => exact fingerprintEntries_asks condaPrefix (some history)
  | false => exact fingerprintEntries_asks condaPrefix none

/-! ## The parse -/

variable {parser : PackageParser}

/-- INTERNAL: the file of the R package is one of its packages. -/
theorem isRBasePackage_packageFilename (version hash : String) :
    isRBasePackage ("r-base-" ++ version ++ "-" ++ hash ++ ".json") = true := by
  simp only [isRBasePackage, String.toList_append, Bool.and_eq_true, List.isPrefixOf_iff_prefix,
    List.isSuffixOf_iff_suffix]
  exact ⟨⟨version.toList ++ ("-".toList ++ (hash.toList ++ ".json".toList)), by simp⟩,
    List.suffix_append _ _⟩

/-- The package that is chosen is a package file of the listing. -/
theorem isRBasePackage_of_choosePackage {preferredVersion : Option String}
    {entries : List String} {package : String ×ₗ String}
    (h : choosePackage preferredVersion (matchingPackages parser entries) = some package) :
    isRBasePackage (ofLex package).2 = true := by
  have hmem : package ∈ matchingPackages parser entries := by
    obtain hfound | ⟨-, hhead⟩ := Option.or_eq_some_iff.mp h
    · obtain ⟨preferred, -, hfind⟩ := Option.bind_eq_some_iff.mp hfound
      exact List.mem_of_find?_eq_some hfind
    · exact List.mem_of_head? hhead
  obtain ⟨filename, -, hfilename⟩ :=
    List.mem_filterMap.mp ((List.mem_insertionSort _).mp hmem)
  split at hfilename
  · rename_i hpackage
    obtain ⟨version, -, rfl⟩ := Option.map_eq_some_iff.mp hfilename
    exact hpackage
  · cases hfilename

/-- Reading a watched package asks for texts only. -/
theorem readPackageJson_asks {name : String} (hname : Watched name) (fallbackVersion : String) :
    (readPackageJson parser name fallbackVersion).Asks AboutTexts :=
  ⟨hname, fun _ => trivial⟩

/-- Reading the history asks for texts only. -/
theorem getRInfoFromHistory_asks (parser : PackageParser) :
    (getRInfoFromHistory parser).Asks AboutTexts := by
  refine ⟨.inl rfl, fun contents => ?_⟩
  dsimp only
  split
  · trivial
  · exact (readPackageJson_asks (.inr (isRBasePackage_packageFilename _ _)) _).map

/-- Going through the package files asks for texts only. -/
theorem getRInfoFromPackageFiles_asks (preferredVersion : Option String) :
    (getRInfoFromPackageFiles parser preferredVersion).Asks AboutTexts := by
  refine ⟨trivial, fun entries => ?_⟩
  dsimp only
  split
  · trivial
  · rename_i package hpackage
    obtain ⟨listed, -, hchosen⟩ := Option.bind_eq_some_iff.mp hpackage
    exact (readPackageJson_asks (.inr (isRBasePackage_of_choosePackage hchosen)) _).map

/-- A parse asks for the listing and for the texts of watched files. -/
theorem rCondaPackageInfoFrom_asks (parser : PackageParser) :
    (rCondaPackageInfoFrom parser).Asks AboutTexts := by
  refine (getRInfoFromHistory_asks parser).bind fun lookup => ?_
  match lookup with
  | none => exact getRInfoFromPackageFiles_asks none
  | some (.exact info) => trivial
  | some (.versionOnly version) => exact (getRInfoFromPackageFiles_asks (some version)).map

/-! ## One result -/

/-- Only the listing has several answers. -/
theorem answers_unique {state : Option CondaMeta} {query : MetaQuery}
    {answer answer' : MetaAnswer query} (hquery : query ≠ .readDir)
    (h : MetaAnswers elsewhere state query answer)
    (h' : MetaAnswers elsewhere state query answer') :
    answer = answer' := by
  cases query with
  | readDir => exact absurd rfl hquery
  | pathExists name => exact Eq.trans h (Eq.symm h')
  | fingerprint name => exact Eq.trans h (Eq.symm h')
  | condaMetaFingerprint => exact Eq.trans h (Eq.symm h')
  | readToString name => exact Eq.trans h (Eq.symm h')

/-- The sorted packages do not depend on the order of the listing. -/
theorem matchingPackages_perm {entries entries' : List String} (h : entries.Perm entries') :
    matchingPackages parser entries = matchingPackages parser entries' := by
  have hperm := h.filterMap fun filename =>
    if isRBasePackage filename then
      (rBaseVersion parser filename).map fun version => toLex (version, filename)
    else none
  exact List.Perm.eq_of_pairwise' (List.pairwise_insertionSort _ _)
    (List.pairwise_insertionSort _ _)
    ((List.perm_insertionSort _ _).trans (hperm.trans (List.perm_insertionSort _ _).symm))

/-- INTERNAL: what is chosen does not depend on the order of the listing. -/
theorem choosePackage_listing {state : Option CondaMeta} {entries entries' : Option (List String)}
    (h : MetaAnswers elsewhere state .readDir entries)
    (h' : MetaAnswers elsewhere state .readDir entries')
    (preferredVersion : Option String) :
    (entries.bind fun entries =>
        choosePackage preferredVersion (matchingPackages parser entries)) =
      entries'.bind fun entries =>
        choosePackage preferredVersion (matchingPackages parser entries) := by
  cases entries with
  | none =>
    cases entries' with
    | none => rfl
    | some listed' =>
      obtain ⟨present, hpresent, -⟩ := h'
      cases h.symm.trans hpresent
  | some listed =>
    obtain ⟨present, rfl, hnodup, hlisted⟩ := h
    cases entries' with
    | none => cases h'
    | some listed' =>
      obtain ⟨present', hpresent, hnodup', hlisted'⟩ := h'
      obtain rfl := Option.some.inj hpresent
      have hperm : listed.Perm listed' := by
        rw [List.perm_ext_iff_of_nodup hnodup hnodup']
        intro name
        rw [hlisted, hlisted']
      rw [Option.bind_some, Option.bind_some, matchingPackages_perm hperm]

/-- What the history gives is determined by the state of `conda-meta`. -/
theorem getRInfoFromHistory_unique {state : Option CondaMeta}
    {lookup lookup' : Option HistoryLookup}
    (h : (getRInfoFromHistory parser).Yields (MetaAnswers elsewhere state) lookup)
    (h' : (getRInfoFromHistory parser).Yields (MetaAnswers elsewhere state) lookup') :
    lookup = lookup' := by
  refine h.unique h' (P := (· ≠ .readDir)) ⟨by simp, fun contents => ?_⟩
    fun _ hquery _ _ => answers_unique hquery
  dsimp only
  split
  · trivial
  · exact Asks.map ⟨by simp, fun _ => trivial⟩

/-- What the package files give is determined by the state of `conda-meta`. -/
theorem getRInfoFromPackageFiles_unique {state : Option CondaMeta}
    {preferredVersion : Option String} {info info' : Option RCondaPackageInfo}
    (h : (getRInfoFromPackageFiles parser preferredVersion).Yields (MetaAnswers elsewhere state)
      info)
    (h' : (getRInfoFromPackageFiles parser preferredVersion).Yields (MetaAnswers elsewhere state)
      info') : info = info' := by
  obtain ⟨entries, hentries, hrest⟩ := yields_ask.mp h
  obtain ⟨entries', hentries', hrest'⟩ := yields_ask.mp h'
  rw [choosePackage_listing hentries' hentries] at hrest'
  refine hrest.unique hrest' (P := (· ≠ .readDir)) ?_ fun _ hquery _ _ => answers_unique hquery
  split
  · trivial
  · exact Asks.map ⟨by simp, fun _ => trivial⟩

/-- **A parse of a directory that stands still has one result**, in whatever order the
directory is listed. -/
theorem parse_unique {state : Option CondaMeta} {info info' : Option RCondaPackageInfo}
    (h : (rCondaPackageInfoFrom parser).Yields (MetaAnswers elsewhere state) info)
    (h' : (rCondaPackageInfoFrom parser).Yields (MetaAnswers elsewhere state) info') :
    info = info' := by
  obtain ⟨lookup, hlookup, hrest⟩ := yields_bind.mp h
  obtain ⟨lookup', hlookup', hrest'⟩ := yields_bind.mp h'
  obtain rfl := getRInfoFromHistory_unique hlookup hlookup'
  match lookup with
  | none => exact getRInfoFromPackageFiles_unique hrest hrest'
  | some (.exact info) => rw [yields_done.mp hrest, yields_done.mp hrest']
  | some (.versionOnly version) =>
    obtain ⟨first, hfirst, hdone⟩ := yields_bind.mp hrest
    obtain ⟨first', hfirst', hdone'⟩ := yields_bind.mp hrest'
    obtain rfl := getRInfoFromPackageFiles_unique hfirst hfirst'
    rw [yields_done.mp hdone, yields_done.mp hdone']

/-! ## Directories that agree -/

/-- The directories have the same names and the same watched files. -/
structure Alike (condaMeta condaMeta' : CondaMeta) : Prop where
  directory : condaMeta.directory = condaMeta'.directory
  files : ∀ name, Watched name → fileAt (some condaMeta) name = fileAt (some condaMeta') name

/-- INTERNAL: the same names are the same listings. -/
theorem answers_readDir {entries : Option (List String)}
    (hdirectory : condaMeta.directory = condaMeta'.directory)
    (h : MetaAnswers elsewhere (some condaMeta) .readDir entries) :
    MetaAnswers elsewhere (some condaMeta') .readDir entries := by
  cases entries with
  | none => cases h
  | some listed =>
    obtain ⟨present, hpresent, hnodup, hlisted⟩ := h
    obtain rfl := Option.some.inj hpresent
    refine ⟨condaMeta', rfl, hnodup, fun name => ?_⟩
    have hname := congrFun (congrArg Prod.snd hdirectory) name
    rw [hlisted, ← Finmap.lookup_isSome, ← Finmap.lookup_isSome]
    have hsome := congrArg Option.isSome hname
    simpa only [CondaMeta.directory, Option.isSome_map, Bool.coe_iff_coe] using hsome

/-- Directories that agree have the same listings and the same texts of watched files. -/
theorem Alike.answers (h : Alike condaMeta condaMeta') {query : MetaQuery}
    {answer : MetaAnswer query} (hquery : AboutTexts query)
    (hanswer : MetaAnswers elsewhere (some condaMeta) query answer) :
    MetaAnswers elsewhere (some condaMeta') query answer := by
  cases query with
  | readDir => exact answers_readDir h.directory hanswer
  | readToString name => rwa [MetaAnswers, ← h.files name hquery]
  | pathExists name => exact hquery.elim
  | fingerprint name => exact hquery.elim
  | condaMetaFingerprint => exact hquery.elim

/-- **Directories that agree have the same parse.** -/
theorem parse_congr (h : Alike condaMeta condaMeta') {info : Option RCondaPackageInfo}
    (hinfo : (rCondaPackageInfoFrom parser).Yields (MetaAnswers elsewhere (some condaMeta)) info) :
    (rCondaPackageInfoFrom parser).Yields (MetaAnswers elsewhere (some condaMeta')) info :=
  hinfo.congr (rCondaPackageInfoFrom_asks parser) fun _ hquery _ => h.answers hquery

/-! ## Directories of one fingerprint -/

/-- The fingerprint is that of the directory and of each of its watched files. -/
structure Describes (environment : CondaEnvironmentFingerprint) (condaMeta : CondaMeta) :
    Prop where
  directory : environment.condaMeta = condaMeta.fingerprint
  shown : ∀ name fingerprint, Shows environment name fingerprint →
    ∃ file, fileAt (some condaMeta) name = some file ∧ file.fingerprint = fingerprint
  complete : ∀ name, Watched name → condaMeta.directory.2 name = some true →
    ∃ fingerprint, Shows environment name fingerprint

/-- The fingerprint of a directory that stands still describes it. -/
theorem describes_of_yields {state : Option CondaMeta}
    (h : (fingerprintFromPrefix condaPrefix).Yields (MetaAnswers elsewhere state)
      (some environment)) :
    ∃ condaMeta, state = some condaMeta ∧ Describes environment condaMeta := by
  obtain ⟨exchanges, hfollows, hanswers⟩ := h
  obtain ⟨earlier, rfl, hread⟩ := fingerprintFromPrefix_read hfollows
  rw [List.forall_mem_append, List.forall_mem_singleton] at hanswers
  obtain ⟨condaMeta, rfl, hfingerprint⟩ := Option.map_eq_some_iff.mp (Eq.symm hanswers.2)
  refine ⟨condaMeta, rfl, hfingerprint.symm, ?_, ?_⟩
  · intro name fingerprint hshows
    exact Option.map_eq_some_iff.mp (Eq.symm (hanswers.1 _ (hread.shown name fingerprint hshows)))
  · intro name hwatched hname
    exact hread.complete (fun exchange hmem => consistent_of_answers (hanswers.1 exchange hmem))
      hwatched hname

/-- **Two directories with the same names**, whose watched files agree as far as the
fingerprint shows them, agree. -/
theorem Describes.alike (h : Describes environment condaMeta)
    (hdirectory : condaMeta.directory = condaMeta'.directory)
    (hfiles : ∀ name fingerprint, Shows environment name fingerprint →
      fileAt (some condaMeta) name = fileAt (some condaMeta') name) :
    Alike condaMeta condaMeta' := by
  refine ⟨hdirectory, fun name hwatched => ?_⟩
  by_cases hname : condaMeta.directory.2 name = some true
  · obtain ⟨fingerprint, hshows⟩ := h.complete name hwatched hname
    exact hfiles name fingerprint hshows
  · have hname' := hname
    rw [hdirectory] at hname'
    rw [← fileAt_isSome, Bool.not_eq_true, Option.isSome_eq_false_iff, Option.isNone_iff_eq_none]
      at hname hname'
    rw [hname, hname']

end REnvTools.Analysis
