import REnvTools.Analysis.PackageReadings

/-!
# The package that is linked

The history of an environment that conda transactions have written, and what
`RCondaPackageInfo::from` makes of it. A package file is found whatever the history says
(`yields_linked`), so a linked `r-base` is always reported with its version. The lines of
unlinked packages are not looked at: where no `r-base` is linked, the last `+` line that the
pattern matches is reported (`yields_unlinked`).
-/

set_option autoImplicit false

namespace REnvTools.Analysis

open Lib Lib.Reading Program Model

/-! ## Transactions -/

/-- A build of `r-base`: its version consists of digits and dots. -/
structure RBaseBuild where
  channel : String
  version : String
  hash : String
  version_digits : ∀ c ∈ version.toList, c.isDigit = true ∨ c = '.'
  hash_ne : hash.toList ≠ []
  hash_space : ∀ c ∈ hash.toList, isWhitespace c = false

namespace RBaseBuild

/-- The build in a line of the history, after the sign. -/
def dist (build : RBaseBuild) : String :=
  build.channel ++ "::r-base-" ++ build.version ++ "-" ++ build.hash

/-- The JSON file of the build. -/
def packageFile (build : RBaseBuild) : String :=
  "r-base-" ++ build.version ++ "-" ++ build.hash ++ ".json"

end RBaseBuild

/-- A transaction, as far as it concerns `r-base`, and the other lines that it appends. -/
structure RBaseTransaction where
  unlink : Option RBaseBuild
  link : Option RBaseBuild
  before : List String
  between : List String
  after : List String

namespace RBaseTransaction

/-- The lines that the transaction appends. -/
def lines (t : RBaseTransaction) : List String :=
  t.before ++ t.unlink.toList.map ("-" ++ ·.dist) ++ t.between ++
    t.link.toList.map ("+" ++ ·.dist) ++ t.after

/-- The build that is linked after the transaction. -/
def linked (t : RBaseTransaction) (old : Option RBaseBuild) : Option RBaseBuild :=
  t.link.or (if t.unlink.isSome then none else old)

end RBaseTransaction

/-- The build that is linked after the last transaction. -/
def linkedAfter (transactions : List RBaseTransaction) : Option RBaseBuild :=
  transactions.foldl (fun old t => t.linked old) none

/-- The history has the lines of the transactions; it may be missing as long as there are
none. -/
def Records (history : Option String) (transactions : List RBaseTransaction) : Prop :=
  (history.map fun text => Program.lines text.toList).getD [] =
    (transactions.flatMap RBaseTransaction.lines).map String.toList

/-- The text of a file in the directory. -/
def readFile (condaMeta : CondaMeta) (name : String) : Option String :=
  (fileAt (some condaMeta) name).bind (·.contents)

variable {parser : PackageParser}

/-- A file name of the form `r-base-<version>-<hash>.json`. -/
def IsRBaseFile (parser : PackageParser) (name : String) : Prop :=
  ∃ version hash : String,
    (∀ c ∈ version.toList, (parser.isDecimal c || ['+', '.', '*'].contains c) = true) ∧
      name = "r-base-" ++ version ++ "-" ++ hash ++ ".json"

/-- Of the package files of `r-base`, the directory holds exactly that of the linked build, with
the version of the build in it. -/
structure HoldsPackageOf (parser : PackageParser) (condaMeta : CondaMeta)
    (linked : Option RBaseBuild) : Prop where
  only : ∀ name ∈ condaMeta.entries, IsRBaseFile parser name →
    ∃ build, linked = some build ∧ name = build.packageFile
  version : ∀ build, linked = some build → build.packageFile ∈ condaMeta.entries ∧
    ∃ pkg, (readFile condaMeta build.packageFile).bind parser.fromStr = some pkg ∧
      pkg.version = some build.version

/-- `\d` takes the decimal digits, and not the hyphen. -/
structure ReadsDigits (parser : PackageParser) : Prop where
  digit : ∀ c, c.isDigit = true → parser.isDecimal c = true
  hyphen : parser.isDecimal '-' = false

/-- The directory answers; nothing is elsewhere, since it holds no directories. -/
abbrev DirectoryAnswers (condaMeta : CondaMeta) : (query : MetaQuery) → MetaAnswer query → Prop :=
  MetaAnswers (fun _ => none) (some condaMeta)

/-- What is matched in the history: the captures of the pattern in the last line that counts. -/
def historyMatch (parser : PackageParser) (history : Option String) : Option (String × String) :=
  (history.bind lastRBaseLine).bind (rBaseVersionInHistory parser)

/-! ## File names -/

/-- INTERNAL: what follows `r-base-`. -/
theorem afterRBase_eq_some {text rest : List Char} :
    afterRBase text = some rest ↔ text = "r-base-".toList ++ rest := by
  unfold afterRBase
  constructor
  · intro h
    split at h
    · rename_i hstart
      obtain ⟨rest', rfl⟩ := List.isPrefixOf_iff_prefix.mp hstart
      cases h
      simp
    · cases h
  · rintro rfl
    rw [if_pos (List.isPrefixOf_iff_prefix.mpr (List.prefix_append _ _)), List.drop_left]

/-- INTERNAL: a version goes up to the hyphen. -/
theorem takeWhile_version {p : Char → Bool} {version : List Char}
    (hversion : ∀ c ∈ version, p c = true) (hhyphen : p '-' = false) (rest : List Char) :
    (version ++ '-' :: rest).takeWhile p = version := by
  rw [List.takeWhile_append_of_pos hversion, List.takeWhile_cons_of_neg (by simp [hhyphen]),
    List.append_nil]

/-- INTERNAL: the patterns take the characters of a version. -/
theorem RBaseBuild.isVersionChar (hdigits : ReadsDigits parser) (build : RBaseBuild)
    (others : List Char) (hdot : others.contains '.' = true) :
    ∀ c ∈ build.version.toList, (parser.isDecimal c || others.contains c) = true := by
  intro c hc
  rcases build.version_digits c hc with hdigit | rfl
  · rw [hdigits.digit c hdigit, Bool.true_or]
  · rw [hdot, Bool.or_true]

/-- The name of the file of a build is matched. -/
theorem rBaseVersion_packageFile (hdigits : ReadsDigits parser) (build : RBaseBuild) :
    rBaseVersion parser build.packageFile = some build.version := by
  have hrest : afterRBase build.packageFile.toList =
      some (build.version.toList ++ '-' :: (build.hash.toList ++ ".json".toList)) :=
    afterRBase_eq_some.mpr (by simp [RBaseBuild.packageFile])
  have hversion := RBaseBuild.isVersionChar hdigits build ['+', '.', '*'] (by decide)
  have hnewline : (build.hash.toList ++ ".json".toList).contains '\n' = false := by
    have hhash : '\n' ∉ build.hash.toList :=
      fun hmem => absurd (build.hash_space _ hmem) (by decide)
    simpa using hhash
  unfold rBaseVersion
  simp only [hrest]
  rw [takeWhile_version hversion (by simp [hdigits.hyphen]), List.drop_left]
  change (if (".json".toList.isSuffixOf (build.hash.toList ++ ".json".toList) &&
    !(build.hash.toList ++ ".json".toList).contains '\n') = true then
      some (String.ofList build.version.toList) else none) = some build.version
  rw [hnewline, List.isSuffixOf_iff_suffix.mpr (List.suffix_append _ _), Bool.not_false,
    Bool.and_self, if_pos rfl, String.ofList_toList]

/-- A name that is matched has the form of one. -/
theorem isRBaseFile_of_rBaseVersion {name version : String}
    (h : rBaseVersion parser name = some version) : IsRBaseFile parser name := by
  unfold rBaseVersion at h
  split at h
  · cases h
  · rename_i rest hrest
    have hparts := List.prefix_append_drop (List.takeWhile_prefix
      (fun c => parser.isDecimal c || ['+', '.', '*'].contains c) (l := rest))
    have hversion : ∀ c ∈ rest.takeWhile fun c => parser.isDecimal c || ['+', '.', '*'].contains c,
        (parser.isDecimal c || ['+', '.', '*'].contains c) = true :=
      fun c hc => List.mem_takeWhile_imp
        (p := fun c => parser.isDecimal c || ['+', '.', '*'].contains c) hc
    dsimp only at h
    generalize (rest.takeWhile fun c => parser.isDecimal c || ['+', '.', '*'].contains c) = text
      at h hparts hversion
    split at h
    · rename_i tail htail
      split at h
      · rename_i hjson
        rw [Bool.and_eq_true] at hjson
        obtain ⟨hash, rfl⟩ := List.isSuffixOf_iff_suffix.mp hjson.1
        refine ⟨String.ofList text, String.ofList hash, by simpa using hversion, ?_⟩
        rw [← String.toList_inj, afterRBase_eq_some.mp hrest, hparts, htail]
        simp
      · cases h
    · cases h

/-- INTERNAL: the file that a match in the history names has the form of one. -/
theorem isRBaseFile_of_historyMatch {history : Option String} {version hash : String}
    (h : historyMatch parser history = some (version, hash)) :
    IsRBaseFile parser ("r-base-" ++ version ++ "-" ++ hash ++ ".json") := by
  obtain ⟨line, -, hline⟩ := Option.bind_eq_some_iff.mp h
  obtain ⟨text, -, htext⟩ := List.exists_of_findSome?_eq_some hline
  refine ⟨version, hash, ?_, rfl⟩
  unfold rBaseAt at htext
  split at htext
  · cases htext
  · rename_i rest hrest
    dsimp only at htext
    split at htext
    · split at htext
      · cases htext
      · cases htext
        intro c hc
        rw [String.toList_ofList] at hc
        have hdecimal := List.mem_takeWhile_imp
          (p := fun c => parser.isDecimal c || ['+', '.'].contains c) hc
        simp only [List.contains_cons, List.contains_nil, Bool.or_false, Bool.or_eq_true,
          beq_iff_eq] at hdecimal ⊢
        tauto
    · cases htext

/-! ## Listings -/

variable {condaMeta : CondaMeta}

/-- INTERNAL: the directory can be listed. -/
theorem exists_listing (condaMeta : CondaMeta) :
    ∃ entries, DirectoryAnswers condaMeta .readDir entries :=
  ⟨some condaMeta.entries.keys.toList, condaMeta, rfl, Finset.nodup_toList _, fun _ => by
    rw [Finset.mem_toList, Finmap.mem_keys]⟩

/-- INTERNAL: the listing is of this directory. -/
theorem listing_eq {entries : Option (List String)}
    (h : DirectoryAnswers condaMeta .readDir entries) :
    ∃ names, entries = some names ∧ names.Nodup ∧
      ∀ name, name ∈ names ↔ name ∈ condaMeta.entries := by
  cases entries with
  | none => cases h
  | some names =>
    obtain ⟨present, hpresent, hnodup, hnames⟩ := h
    cases hpresent
    exact ⟨names, rfl, hnodup, hnames⟩

/-- Where no build is linked, no package file is among the entries. -/
theorem matchingPackages_unlinked (hholds : HoldsPackageOf parser condaMeta none)
    {names : List String} (hnames : ∀ name, name ∈ names ↔ name ∈ condaMeta.entries) :
    matchingPackages parser names = [] := by
  have hnone : (names.filterMap fun filename =>
      if isRBasePackage filename then
        (rBaseVersion parser filename).map fun version => toLex (version, filename)
      else none) = [] := by
    apply List.filterMap_eq_nil_iff.mpr
    intro name hname
    split
    · cases hversion : rBaseVersion parser name with
      | none => rfl
      | some version =>
        obtain ⟨build, hbuild, -⟩ :=
          hholds.only name ((hnames name).mp hname) (isRBaseFile_of_rBaseVersion hversion)
        cases hbuild
    · rfl
  unfold matchingPackages
  rw [hnone]
  rfl

/-- INTERNAL: in a list without repeats, one element is kept if only that one is. -/
theorem filterMap_eq_singleton {α β : Type} {f : α → Option β} {l : List α} {a : α} {b : β}
    (hnodup : l.Nodup) (hmem : a ∈ l) (hkept : f a = some b)
    (hother : ∀ a' ∈ l, a' ≠ a → f a' = none) : l.filterMap f = [b] := by
  obtain ⟨first, last, rfl⟩ := List.append_of_mem hmem
  obtain ⟨-, hlast, hdisjoint⟩ := List.nodup_append.mp hnodup
  have hfirst : first.filterMap f = [] := List.filterMap_eq_nil_iff.mpr fun a' ha' =>
    hother a' (List.mem_append_left _ ha') (hdisjoint a' ha' a List.mem_cons_self)
  have hrest : last.filterMap f = [] := List.filterMap_eq_nil_iff.mpr fun a' ha' =>
    hother a' (List.mem_append_right _ (List.mem_cons_of_mem a ha')) fun heq =>
      (List.nodup_cons.mp hlast).1 (heq ▸ ha')
  rw [List.filterMap_append, List.filterMap_cons_some hkept, hfirst, hrest]
  rfl

/-- Where a build is linked, its file is the one package file among the entries. -/
theorem matchingPackages_linked (hdigits : ReadsDigits parser) {build : RBaseBuild}
    (hholds : HoldsPackageOf parser condaMeta (some build)) {names : List String}
    (hnodup : names.Nodup) (hnames : ∀ name, name ∈ names ↔ name ∈ condaMeta.entries) :
    matchingPackages parser names = [toLex (build.version, build.packageFile)] := by
  have hone : (names.filterMap fun filename =>
      if isRBasePackage filename then
        (rBaseVersion parser filename).map fun version => toLex (version, filename)
      else none) = [toLex (build.version, build.packageFile)] := by
    refine filterMap_eq_singleton hnodup ((hnames _).mpr (hholds.version build rfl).1) ?_ ?_
    · rw [rBaseVersion_packageFile hdigits]
      exact if_pos (isRBasePackage_packageFilename _ _)
    · intro name hname hne
      split
      · cases hversion : rBaseVersion parser name with
        | none => rfl
        | some version =>
          obtain ⟨build', hbuild', rfl⟩ :=
            hholds.only name ((hnames name).mp hname) (isRBaseFile_of_rBaseVersion hversion)
          cases hbuild'
          exact absurd rfl hne
      · rfl
  unfold matchingPackages
  rw [hone]
  rfl

/-- INTERNAL: the only package is chosen. -/
theorem choosePackage_singleton (preferredVersion : Option String) (package : String ×ₗ String) :
    choosePackage preferredVersion [package] = some package := by
  unfold choosePackage
  cases preferredVersion with
  | none => rfl
  | some preferred =>
    rw [Option.bind_some, List.find?_cons]
    split <;> rfl

/-! ## Readings -/

/-- INTERNAL: a file is read as it is. -/
theorem answers_readFile (name : String) (contents : Option String) :
    DirectoryAnswers condaMeta (.readToString name) contents ↔
      contents = readFile condaMeta name := Iff.rfl

/-- INTERNAL: what is read of a package file. -/
theorem yields_readPackageJson {name fallbackVersion : String}
    {info : Option RCondaPackageInfo} :
    (readPackageJson parser name fallbackVersion).Yields (DirectoryAnswers condaMeta) info ↔
      info = ((readFile condaMeta name).bind parser.fromStr).map fun pkg =>
        ⟨pkg.version.getD fallbackVersion, parseArch pkg⟩ := by
  unfold readPackageJson
  rw [yields_ask_of_forall (answers_readFile name), yields_done]

/-- INTERNAL: what the history gives. -/
theorem yields_getRInfoFromHistory {lookup : Option HistoryLookup} :
    (getRInfoFromHistory parser).Yields (DirectoryAnswers condaMeta) lookup ↔
      lookup = (historyMatch parser (readFile condaMeta "history")).map fun found =>
        ((readFile condaMeta ("r-base-" ++ found.1 ++ "-" ++ found.2 ++ ".json")).bind
            parser.fromStr).elim (.versionOnly found.1) fun pkg =>
          .exact ⟨pkg.version.getD found.1, parseArch pkg⟩ := by
  unfold getRInfoFromHistory historyMatch
  rw [yields_ask_of_forall (answers_readFile "history")]
  cases ((readFile condaMeta "history").bind lastRBaseLine).bind (rBaseVersionInHistory parser) with
  | none => exact yields_done
  | some found =>
    obtain ⟨version, hash⟩ := found
    dsimp only
    rw [yields_map]
    simp only [yields_readPackageJson, exists_eq_left, Option.map_some]
    cases (readFile condaMeta ("r-base-" ++ version ++ "-" ++ hash ++ ".json")).bind
      parser.fromStr with
    | none => rfl
    | some pkg => rfl

/-- INTERNAL: no package file is found where no build is linked. -/
theorem yields_packageFiles_unlinked (hholds : HoldsPackageOf parser condaMeta none)
    {preferredVersion : Option String} {info : Option RCondaPackageInfo} :
    (getRInfoFromPackageFiles parser preferredVersion).Yields (DirectoryAnswers condaMeta) info ↔
      info = none := by
  have hnone : choosePackage preferredVersion [] = none := by
    unfold choosePackage
    cases preferredVersion <;> rfl
  unfold getRInfoFromPackageFiles
  refine (yields_ask_of_alike (exists_listing condaMeta)
    fun entries hentries => ?_).trans yields_done
  obtain ⟨names, rfl, -, hnames⟩ := listing_eq hentries
  rw [Option.bind_some, matchingPackages_unlinked hholds hnames, hnone]

/-- INTERNAL: the file of the linked build is found. -/
theorem yields_packageFiles_linked (hdigits : ReadsDigits parser) {build : RBaseBuild}
    (hholds : HoldsPackageOf parser condaMeta (some build)) {pkg : CondaMetaPackage}
    (hpkg : (readFile condaMeta build.packageFile).bind parser.fromStr = some pkg)
    (hversion : pkg.version = some build.version) {preferredVersion : Option String}
    {info : Option RCondaPackageInfo} :
    (getRInfoFromPackageFiles parser preferredVersion).Yields (DirectoryAnswers condaMeta) info ↔
      info = some ⟨build.version, parseArch pkg⟩ := by
  have hread : ((readPackageJson parser build.packageFile build.version).map fun info =>
      info.or (some ⟨build.version, none⟩)).Yields (DirectoryAnswers condaMeta) info ↔
      info = some ⟨build.version, parseArch pkg⟩ := by
    rw [yields_map]
    simp only [yields_readPackageJson, exists_eq_left, hpkg, Option.map_some, hversion,
      Option.getD_some, Option.some_or]
  unfold getRInfoFromPackageFiles
  refine (yields_ask_of_alike (exists_listing condaMeta) fun entries hentries => ?_).trans hread
  obtain ⟨names, rfl, hnodup, hnames⟩ := listing_eq hentries
  rw [Option.bind_some, matchingPackages_linked hdigits hholds hnodup hnames,
    choosePackage_singleton]
  rfl

/-- INTERNAL: what is no entry has no text. -/
theorem readFile_of_not_mem {name : String} (h : name ∉ condaMeta.entries) :
    readFile condaMeta name = none := by
  unfold readFile fileAt
  rw [Option.bind_some, Finmap.lookup_eq_none.mpr h]
  rfl

/-- Where no build is linked, the match in the history is reported. -/
theorem yields_unlinked (hholds : HoldsPackageOf parser condaMeta none)
    {result : Option RCondaPackageInfo} :
    (rCondaPackageInfoFrom parser).Yields (DirectoryAnswers condaMeta) result ↔
      result = (historyMatch parser (readFile condaMeta "history")).map fun found =>
        ⟨found.1, none⟩ := by
  unfold rCondaPackageInfoFrom
  rw [yields_bind]
  simp only [yields_getRInfoFromHistory, exists_eq_left]
  cases hmatch : historyMatch parser (readFile condaMeta "history") with
  | none => exact yields_packageFiles_unlinked hholds
  | some found =>
    obtain ⟨version, hash⟩ := found
    have hmissing : "r-base-" ++ version ++ "-" ++ hash ++ ".json" ∉ condaMeta.entries := by
      intro hmem
      obtain ⟨build, hbuild, -⟩ := hholds.only _ hmem (isRBaseFile_of_historyMatch hmatch)
      cases hbuild
    simp only [Option.map_some, readFile_of_not_mem hmissing, Option.bind_none,
      Option.elim_none]
    rw [yields_map]
    simp only [yields_packageFiles_unlinked hholds, exists_eq_left, Option.none_or]

/-- Where a build is linked, its version is reported whatever the history says. -/
theorem yields_linked (hdigits : ReadsDigits parser) {build : RBaseBuild}
    (hholds : HoldsPackageOf parser condaMeta (some build)) :
    (∃ result, (rCondaPackageInfoFrom parser).Yields (DirectoryAnswers condaMeta) result) ∧
      ∀ result, (rCondaPackageInfoFrom parser).Yields (DirectoryAnswers condaMeta) result →
        ∃ arch, result = some ⟨build.version, arch⟩ := by
  obtain ⟨-, pkg, hpkg, hversion⟩ := hholds.version build rfl
  have hone : ∃ arch, ∀ result,
      (rCondaPackageInfoFrom parser).Yields (DirectoryAnswers condaMeta) result ↔
        result = some ⟨build.version, arch⟩ := by
    refine ⟨parseArch pkg, fun result => ?_⟩
    unfold rCondaPackageInfoFrom
    rw [yields_bind]
    simp only [yields_getRInfoFromHistory, exists_eq_left]
    cases hmatch : historyMatch parser (readFile condaMeta "history") with
    | none =>
      rw [Option.map_none]
      exact yields_packageFiles_linked hdigits hholds hpkg hversion
    | some found =>
      obtain ⟨version, hash⟩ := found
      rw [Option.map_some]
      by_cases hmem : "r-base-" ++ version ++ "-" ++ hash ++ ".json" ∈ condaMeta.entries
      · obtain ⟨build', hbuild, hname⟩ := hholds.only _ hmem (isRBaseFile_of_historyMatch hmatch)
        cases hbuild
        simp only [hname, hpkg, hversion, Option.elim_some, Option.getD_some]
        exact yields_done
      · simp only [readFile_of_not_mem hmem, Option.bind_none, Option.elim_none]
        rw [yields_map]
        simp only [yields_packageFiles_linked hdigits hholds hpkg hversion, exists_eq_left,
          Option.some_or]
  obtain ⟨arch, hone⟩ := hone
  exact ⟨⟨_, (hone _).mpr rfl⟩, fun result hresult => ⟨arch, (hone result).mp hresult⟩⟩

/-! ## The history -/

/-- The line is one that the search for `r-base` takes up. -/
def IsCounted (line : List Char) : Prop := line.head? = some '+' ∧ ":r-base-".toList <:+: line

/-- No line of another package is one that the search for `r-base` takes up. -/
def OthersNotCounted (transactions : List RBaseTransaction) : Prop :=
  ∀ t ∈ transactions, ∀ line ∈ t.before ++ t.between ++ t.after, ¬IsCounted line.toList

/-- INTERNAL: the line of a linked build is taken up. -/
theorem isCounted_link (build : RBaseBuild) : IsCounted ("+" ++ build.dist).toList := by
  refine ⟨by simp, '+' :: (build.channel.toList ++ [':']),
    build.version.toList ++ '-' :: build.hash.toList, ?_⟩
  simp [RBaseBuild.dist]

/-- INTERNAL: the line of an unlinked build is not. -/
theorem not_isCounted_unlink (build : RBaseBuild) : ¬IsCounted ("-" ++ build.dist).toList := by
  rintro ⟨hsign, -⟩
  simp at hsign

/-- The pattern matches the line of a linked build. -/
theorem rBaseVersionInHistory_link (hdigits : ReadsDigits parser) (build : RBaseBuild) :
    rBaseVersionInHistory parser ("+" ++ build.dist).toList ≠ none := by
  have hversion := RBaseBuild.isVersionChar hdigits build ['+', '.'] (by decide)
  have hhash : build.hash.toList.takeWhile (!isWhitespace ·) = build.hash.toList :=
    List.takeWhile_eq_self_iff.mpr fun c hc => by simp [build.hash_space c hc]
  have hat : (rBaseAt parser
      ("r-base-".toList ++ (build.version.toList ++ '-' :: build.hash.toList))).isSome = true := by
    unfold rBaseAt
    simp only [afterRBase_eq_some.mpr rfl]
    rw [takeWhile_version hversion (by simp [hdigits.hyphen]), List.drop_left]
    simp only [hhash]
    obtain ⟨c, hash, hcons⟩ := List.exists_cons_of_ne_nil build.hash_ne
    rw [hcons]
    rfl
  unfold rBaseVersionInHistory
  intro hnone
  have hsuffix : "r-base-".toList ++ (build.version.toList ++ '-' :: build.hash.toList) ∈
      ("+" ++ build.dist).toList.tails.reverse := by
    rw [List.mem_reverse, List.mem_tails]
    exact ⟨'+' :: (build.channel.toList ++ [':', ':']), by simp [RBaseBuild.dist]⟩
  rw [List.findSome?_eq_none_iff.mp hnone _ hsuffix] at hat
  cases hat

/-- INTERNAL: a line that is taken up is that of a linked build. -/
theorem exists_link_of_isCounted {transactions : List RBaseTransaction}
    (hothers : OthersNotCounted transactions) {line : String}
    (hline : line ∈ transactions.flatMap RBaseTransaction.lines)
    (hcounted : IsCounted line.toList) :
    ∃ t ∈ transactions, ∃ build, t.link = some build ∧ line = "+" ++ build.dist := by
  obtain ⟨t, ht, hmem⟩ := List.mem_flatMap.mp hline
  have hother : line ∉ t.before ++ t.between ++ t.after :=
    fun hmem => hothers t ht line hmem hcounted
  have hunlink : line ∉ t.unlink.toList.map ("-" ++ ·.dist) := by
    intro hmem
    obtain ⟨build, -, rfl⟩ := List.mem_map.mp hmem
    exact not_isCounted_unlink build hcounted
  simp only [RBaseTransaction.lines, List.mem_append] at hmem hother
  have hlink : line ∈ t.link.toList.map ("+" ++ ·.dist) := by tauto
  obtain ⟨build, hbuild, rfl⟩ := List.mem_map.mp hlink
  exact ⟨t, ht, build, Option.mem_toList.mp hbuild, rfl⟩

/-- Without counted lines of other packages, nothing is matched exactly if `r-base` was never
linked. -/
theorem historyMatch_eq_none_iff (hdigits : ReadsDigits parser) {history : Option String}
    {transactions : List RBaseTransaction} (hrecords : Records history transactions)
    (hothers : OthersNotCounted transactions) :
    historyMatch parser history = none ↔ ∀ t ∈ transactions, t.link = none := by
  have hlast : history.bind lastRBaseLine =
      (((transactions.flatMap RBaseTransaction.lines).map String.toList).filter fun line =>
        line.head? = some '+' && decide (":r-base-".toList <:+: line)).getLast? := by
    rw [← hrecords]
    cases history <;> rfl
  have hkept : ∀ line, line ∈ ((transactions.flatMap RBaseTransaction.lines).map
      String.toList).filter (fun line =>
        line.head? = some '+' && decide (":r-base-".toList <:+: line)) ↔
      ∃ text ∈ transactions.flatMap RBaseTransaction.lines, text.toList = line ∧
        IsCounted line := by
    intro line
    simp only [List.mem_filter, List.mem_map, Bool.and_eq_true, decide_eq_true_eq, IsCounted]
    constructor
    · rintro ⟨⟨text, htext, rfl⟩, hcounted⟩
      exact ⟨text, htext, rfl, hcounted⟩
    · rintro ⟨text, htext, rfl, hcounted⟩
      exact ⟨⟨text, htext, rfl⟩, hcounted⟩
  unfold historyMatch
  rw [hlast]
  constructor
  · intro hnone t ht
    by_contra hlink
    obtain ⟨build, hbuild⟩ := Option.ne_none_iff_exists'.mp hlink
    have hmem := (hkept ("+" ++ build.dist).toList).mpr
      ⟨"+" ++ build.dist, List.mem_flatMap.mpr ⟨t, ht, by simp [RBaseTransaction.lines, hbuild]⟩,
        rfl, isCounted_link build⟩
    obtain ⟨last, hlast⟩ := Option.ne_none_iff_exists'.mp
      (mt List.getLast?_eq_none_iff.mp (List.ne_nil_of_mem hmem))
    obtain ⟨text, htext, rfl, hcounted⟩ := (hkept last).mp (List.mem_of_getLast? hlast)
    obtain ⟨-, -, build', -, rfl⟩ := exists_link_of_isCounted hothers htext hcounted
    rw [hlast, Option.bind_some] at hnone
    exact rBaseVersionInHistory_link hdigits build' hnone
  · intro hnone
    have hempty : ((transactions.flatMap RBaseTransaction.lines).map String.toList).filter
        (fun line => line.head? = some '+' && decide (":r-base-".toList <:+: line)) = [] := by
      apply List.eq_nil_iff_forall_not_mem.mpr
      intro line hline
      obtain ⟨text, htext, rfl, hcounted⟩ := (hkept line).mp hline
      obtain ⟨t, ht, build, hbuild, -⟩ := exists_link_of_isCounted hothers htext hcounted
      cases (hnone t ht).symm.trans hbuild
    rw [hempty]
    rfl

/-- The result names the linked build: there is one exactly if a build is linked, and it has the
version of the build. -/
def NamesLinked (result : Option RCondaPackageInfo) (linked : Option RBaseBuild) : Prop :=
  (result.isSome = true ↔ linked.isSome = true) ∧
    ∀ info build, result = some info → linked = some build → info.version = build.version

/-- **When the metadata name the linked `r-base`**: exactly if a build is linked after the last
transaction, or the pattern matches nothing in the last `+` line of the history that contains
`:r-base-`. Unless lines of other packages contain that, the latter means that no transaction
ever linked `r-base`. -/
theorem packageInfo_names_linked_iff (hdigits : ReadsDigits parser)
    {transactions : List RBaseTransaction} {condaMeta : CondaMeta}
    (hrecords : Records (readFile condaMeta "history") transactions)
    (hholds : HoldsPackageOf parser condaMeta (linkedAfter transactions)) :
    (((∃ result, (rCondaPackageInfoFrom parser).Yields (DirectoryAnswers condaMeta) result) ∧
        ∀ result, (rCondaPackageInfoFrom parser).Yields (DirectoryAnswers condaMeta) result →
          NamesLinked result (linkedAfter transactions)) ↔
      (linkedAfter transactions).isSome = true ∨
        historyMatch parser (readFile condaMeta "history") = none) ∧
    (OthersNotCounted transactions →
      (historyMatch parser (readFile condaMeta "history") = none ↔
        ∀ t ∈ transactions, t.link = none)) := by
  refine ⟨?_, historyMatch_eq_none_iff hdigits hrecords⟩
  cases hlinked : linkedAfter transactions with
  | none =>
    rw [hlinked] at hholds
    simp only [yields_unlinked hholds, exists_eq, true_and, forall_eq, Option.isSome_none,
      Bool.false_eq_true, false_or]
    unfold NamesLinked
    cases historyMatch parser (readFile condaMeta "history") with
    | none => simp
    | some found => simp
  | some build =>
    rw [hlinked] at hholds
    obtain ⟨hresult, hversion⟩ := yields_linked hdigits hholds
    refine iff_of_true ⟨hresult, fun result hyields => ?_⟩ (.inl rfl)
    obtain ⟨arch, rfl⟩ := hversion result hyields
    refine ⟨by simp, fun info build' hinfo hbuild => ?_⟩
    cases hinfo
    cases hbuild
    rfl

/-! ## An upgrade and a removal -/

/-- A build of R 4.1. -/
def r41 : RBaseBuild :=
  ⟨"c", "4.1", "h_0", by simp, by decide, by simp [isWhitespace]⟩

/-- A build of R 4.2. -/
def r42 : RBaseBuild :=
  ⟨"c", "4.2", "h_0", by simp, by decide, by simp [isWhitespace]⟩

/-- A parser that knows the files of these builds. -/
def r41Parser : PackageParser where
  isDecimal := Char.isDigit
  fromStr := fun text =>
    if text = "\x7b\"version\":\"4.1\"\x7d" then some ⟨some "4.1", none, none⟩
    else if text = "\x7b\"version\":\"4.2\"\x7d" then some ⟨some "4.2", none, none⟩
    else none

/-- R 4.1 is installed. -/
def r41Installed : RBaseTransaction := ⟨none, some r41, [], [], []⟩

/-- It is upgraded to R 4.2. -/
def r42Upgraded : RBaseTransaction := ⟨some r41, some r42, [], [], []⟩

/-- It is removed. -/
def r41Removed : RBaseTransaction := ⟨some r41, none, [], [], []⟩

/-- The directory after the upgrade. -/
def upgradedMeta : CondaMeta where
  fingerprint := ⟨2, 0⟩
  entries := (Finmap.singleton "history" (some ⟨⟨1, 57⟩,
    some "+c::r-base-4.1-h_0\n-c::r-base-4.1-h_0\n+c::r-base-4.2-h_0\n"⟩)).insert
    "r-base-4.2-h_0.json" (some ⟨⟨2, 17⟩, some "\x7b\"version\":\"4.2\"\x7d"⟩)

/-- The directory after the removal. -/
def removedMeta : CondaMeta where
  fingerprint := ⟨3, 0⟩
  entries := Finmap.singleton "history"
    (some ⟨⟨3, 38⟩, some "+c::r-base-4.1-h_0\n-c::r-base-4.1-h_0\n"⟩)

/-- INTERNAL: the parser reads digits. -/
theorem r41Parser_readsDigits : ReadsDigits r41Parser := ⟨fun _ h => h, by decide⟩

/-- INTERNAL: the history of the upgrade. -/
theorem upgradedMeta_records :
    Records (readFile upgradedMeta "history") [r41Installed, r42Upgraded] := by
  unfold Records
  decide

/-- INTERNAL: the history of the removal. -/
theorem removedMeta_records :
    Records (readFile removedMeta "history") [r41Installed, r41Removed] := by
  unfold Records
  decide

/-- INTERNAL: the history is no package file. -/
theorem not_isRBaseFile_history : ¬IsRBaseFile parser "history" := by
  rintro ⟨version, hash, -, hname⟩
  have htext := congrArg String.toList hname
  simp at htext

/-- INTERNAL: no package file is left. -/
theorem removedMeta_holds : HoldsPackageOf r41Parser removedMeta none where
  only := by
    intro name hname hfile
    obtain rfl := Finmap.mem_singleton _ _ _ |>.mp hname
    exact absurd hfile not_isRBaseFile_history
  version := by
    intro build hbuild
    cases hbuild

/-- INTERNAL: only the file of the second build is there. -/
theorem upgradedMeta_holds : HoldsPackageOf r41Parser upgradedMeta (some r42) where
  only := by
    intro name hname hfile
    rw [upgradedMeta, Finmap.mem_insert, Finmap.mem_singleton] at hname
    obtain rfl | rfl := hname
    · exact ⟨r42, rfl, by decide⟩
    · exact absurd hfile not_isRBaseFile_history
  version := by
    rintro build ⟨rfl⟩
    have hparse : r41Parser.fromStr "\x7b\"version\":\"4.2\"\x7d" =
        some ⟨some "4.2", none, none⟩ := by simp [r41Parser]
    refine ⟨?_, ⟨some "4.2", none, none⟩, hparse, rfl⟩
    rw [upgradedMeta, Finmap.mem_insert]
    exact .inl (by decide)

/-- After an upgrade the second build is named. -/
theorem packageInfo_names_installed :
    (∃ result, (rCondaPackageInfoFrom r41Parser).Yields (DirectoryAnswers upgradedMeta) result) ∧
      ∀ result, (rCondaPackageInfoFrom r41Parser).Yields (DirectoryAnswers upgradedMeta) result →
        NamesLinked result (linkedAfter [r41Installed, r42Upgraded]) :=
  (packageInfo_names_linked_iff r41Parser_readsDigits upgradedMeta_records
    upgradedMeta_holds).1.mpr (.inl rfl)

/-- A package that is no longer linked is reported. -/
theorem removed_package_reported :
    ¬∀ (parser : PackageParser) (transactions : List RBaseTransaction) (condaMeta : CondaMeta),
      ReadsDigits parser → Records (readFile condaMeta "history") transactions →
      HoldsPackageOf parser condaMeta (linkedAfter transactions) →
      (∃ result, (rCondaPackageInfoFrom parser).Yields (DirectoryAnswers condaMeta) result) ∧
        ∀ result, (rCondaPackageInfoFrom parser).Yields (DirectoryAnswers condaMeta) result →
          NamesLinked result (linkedAfter transactions) := by
  intro h
  have hyields : (rCondaPackageInfoFrom r41Parser).Yields (DirectoryAnswers removedMeta)
      (some ⟨"4.1", none⟩) := by
    rw [yields_unlinked removedMeta_holds]
    decide
  have hnames := (h r41Parser [r41Installed, r41Removed] removedMeta r41Parser_readsDigits
    removedMeta_records removedMeta_holds).2 _ hyields
  exact absurd (hnames.1.mp rfl) (by decide)

end REnvTools.Analysis
