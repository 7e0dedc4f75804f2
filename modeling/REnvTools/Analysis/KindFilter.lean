import REnvTools.Analysis.FieldChoice

/-!
# The kind filter, streamed and collected

The streaming reporters filter the first report of a key, when it is forwarded; the
collected output filters the merged record. A later report can change the kind of the
record (`kind_changes_after_streaming`), so the two agree on a key unless a later report
of another kind outranks the first or gives a kind to a first report without one
(`kind_filter`). What carries the proof: merging never lowers the rank of a record as
long as its kind stays.
-/

set_option autoImplicit false

namespace REnvTools.Analysis

open Program Lib KeyedStore

variable {os : Os} {a b i : RInstallation}

/-! ## What is output -/

/-- The installation of a message, if it carries one. -/
def sentInstallation : Message → Option RInstallation
  | .installation installation => some installation
  | .manager _ => none

/-- The installations `JsonRpcReporter` sends below the decorator. -/
def sentByJsonRpc (os : Os) (kind : RInstallationKind) (reports : List RInstallation) :
    List RInstallation :=
  (CacheReporter.reportAll os (jsonRpcReporter (some kind)) (CacheReporter.new [])
    reports).reporter.filterMap sentInstallation

/-- The installations of the kind `StdioReporter` keeps below the decorator. -/
def keptByStdio (os : Os) (printList : Bool) (kind : RInstallationKind)
    (reports : List RInstallation) : List RInstallation :=
  (CacheReporter.reportAll os (stdioReporter printList (some kind))
    (CacheReporter.new StdioReporter.empty) reports).reporter.installationPaths (some kind)

/-- The installations `StdioReporter` prints below the decorator. -/
def printedByStdio (os : Os) (printList : Bool) (kind : RInstallationKind)
    (reports : List RInstallation) : List RInstallation :=
  (CacheReporter.reportAll os (stdioReporter printList (some kind))
    (CacheReporter.new StdioReporter.empty) reports).reporter.printed

section Streaming

variable {kind : RInstallationKind}

/-- INTERNAL: what the reporter sends of a list. -/
theorem jsonRpc_foldl (installations : List RInstallation) (sent : List Message) :
    (installations.foldl
        (fun s i => (jsonRpcReporter (some kind)).reportInstallation i s) sent).filterMap
          sentInstallation =
      sent.filterMap sentInstallation ++ installations.filter (·.kind = some kind) := by
  induction installations generalizing sent with
  | nil => simp
  | cons i installations ih =>
    rw [List.foldl_cons, ih]
    by_cases hkind : i.kind = some kind
    · simp [jsonRpcReporter, hkind, sentInstallation]
    · simp [jsonRpcReporter, hkind]

/-- INTERNAL: what the reporter keeps and prints of a list. -/
theorem stdio_foldl (printList : Bool) (installations : List RInstallation)
    (s : StdioReporter) :
    (installations.foldl
        (fun s i => (stdioReporter printList (some kind)).reportInstallation i s)
          s).installationPaths (some kind) =
        s.installationPaths (some kind) ++ installations.filter (·.kind = some kind) ∧
      (installations.foldl
        (fun s i => (stdioReporter printList (some kind)).reportInstallation i s)
          s).printed =
        s.printed ++ if printList then installations.filter (·.kind = some kind) else [] := by
  induction installations generalizing s with
  | nil => simp
  | cons i installations ih =>
    rw [List.foldl_cons]
    obtain ⟨hkept, hprinted⟩ := ih ((stdioReporter printList (some kind)).reportInstallation i s)
    rw [hkept, hprinted]
    by_cases hkind : i.kind = some kind
    · cases printList <;> simp [stdioReporter, hkind]
    · simp [stdioReporter, hkind]

/-- **The streaming reporters** output the forwarded reports of the kind. -/
theorem sentByJsonRpc_eq (os : Os) (kind : RInstallationKind) (reports : List RInstallation) :
    sentByJsonRpc os kind reports =
      (filedInstallations os reports).forwarded.filter (·.kind = some kind) := by
  rw [sentByJsonRpc, reportAll_eq, jsonRpc_foldl]
  rfl

/-- The reporter keeps what is forwarded of the kind. -/
theorem keptByStdio_eq (os : Os) (printList : Bool) (kind : RInstallationKind)
    (reports : List RInstallation) :
    keptByStdio os printList kind reports =
      (filedInstallations os reports).forwarded.filter (·.kind = some kind) := by
  rw [keptByStdio, reportAll_eq, (stdio_foldl printList _ _).1]
  rfl

/-- The reporter prints what is forwarded of the kind, if it prints at all. -/
theorem printedByStdio_eq (os : Os) (printList : Bool) (kind : RInstallationKind)
    (reports : List RInstallation) :
    printedByStdio os printList kind reports =
      if printList then (filedInstallations os reports).forwarded.filter (·.kind = some kind)
      else [] := by
  rw [printedByStdio, reportAll_eq, (stdio_foldl printList _ _).2]
  rfl

end Streaming

/-! ## The rank of a merged record -/

section Rank

/-- INTERNAL: where more conditions hold, no fewer are counted. -/
theorem count_true_mono {l l' : List Bool}
    (h : List.Forall₂ (fun x y => x = true → y = true) l l') : l.count true ≤ l'.count true := by
  induction h with
  | nil => exact le_rfl
  | @cons x y l l' hxy _ ih =>
    cases x with
    | false =>
      rw [List.count_cons_of_ne (by simp)]
      exact ih.trans List.count_le_count_cons
    | true =>
      obtain rfl := hxy rfl
      simpa using ih

/-- A chosen field that is there stays there. -/
theorem isSome_of_choosesAt {α : Type} {f : RInstallation → Option α}
    (hf : ChoosesAt (mergeInstallations os) f a b) (ha : (f a).isSome = true) :
    (f (mergeInstallations os a b)).isSome = true := by
  obtain ⟨x, hx⟩ := Option.isSome_iff_exists.mp ha
  rcases hf with heq | heq
  · rw [heq, hx]
    rfl
  · rw [heq, hx]
    cases f b <;> rfl

/-- INTERNAL: a built record has a list of executables exactly if it knows one. -/
theorem isSome_knownExecutables {i : RInstallation} (hi : Built os i) :
    i.knownExecutables.isSome = true ↔ ∃ p, p ∈ knownPaths i := by
  rw [knownExecutables_of_built hi]
  cases knownPaths i with
  | nil => simp [someUnlessEmpty]
  | cons p l => simp [someUnlessEmpty]

/-- INTERNAL: a built record has a list of symbolic links exactly if it knows one. -/
theorem isSome_symlinks {i : RInstallation} (hi : Built os i) :
    i.symlinks.isSome = true ↔ ∃ p, p ∈ symlinkPaths i := by
  rw [symlinks_of_built hi]
  cases symlinkPaths i with
  | nil => simp [someUnlessEmpty]
  | cons p l => simp [someUnlessEmpty]

/-- **A merge is at least as complete** as the record it started from. -/
theorem installationCompleteness_merge (h : NormIdempotent os) {k : InstallationKey}
    (ha : KeyParts os k a) (hb : KeyParts os k b) :
    installationCompleteness a ≤ installationCompleteness (mergeInstallations os a b) := by
  have hmerged := keyParts_merge h a b ha hb
  obtain ⟨harch, hstart, henv⟩ := keyParts_eq ha hmerged
  have hor : ∀ {α : Type} {f : RInstallation → Option α},
      (∀ a b p s, f (RInstallationBuilder.build os (mergeBuilder os a b p s)) =
        (f p).or (f s)) →
      (f a).isSome = true → (f (mergeInstallations os a b)).isSome = true :=
    fun hf => isSome_of_choosesAt (choosesAt_of_or hf a b)
  apply count_true_mono
  refine .cons (fun hsome => isSome_displayName_merge os (.inl hsome)) <|
    .cons (hor fun _ _ _ _ => rfl) <|
    .cons ?executable <| .cons (hor fun _ _ _ _ => rfl) <| .cons (hor fun _ _ _ _ => rfl) <|
    .cons ?home <| .cons (hor fun _ _ _ _ => rfl) <| .cons (harch ▸ id) <|
    .cons ?known <| .cons ?symlinks <|
    .cons (isSome_of_choosesAt (choosesAt_locatorMetadata a b)) <|
    .cons ?overlay <| .cons ?scriptPath <| .cons (hstart ▸ id) <| .cons (henv ▸ id) <|
    .cons ?orthogonal <| .cons (hor fun _ _ _ _ => rfl) .nil
  case executable =>
    intro hsome
    simpa using isSome_of_choosesAt (choosesAt_executable h a b) (by simpa using hsome)
  case home =>
    intro hsome
    simpa using isSome_of_choosesAt (choosesAt_home h a b) (by simpa using hsome)
  case known =>
    rw [isSome_knownExecutables ha.built, isSome_knownExecutables hmerged.built]
    exact fun ⟨p, hp⟩ => ⟨p, (mem_knownPaths_merge h ha.built hb.built p).mpr (.inl hp)⟩
  case symlinks =>
    rw [isSome_symlinks ha.built, isSome_symlinks hmerged.built]
    exact fun ⟨p, hp⟩ => ⟨p, (mem_symlinkPaths_merge h ha.built hb.built p).mpr (.inl hp)⟩
  case overlay => exact fun hsome => (isSome_rversionsOverlay_merge os a b).mpr (.inl hsome)
  case scriptPath =>
    intro hsome
    obtain ⟨primary, secondary, hchosen, heq⟩ := isSome_or_of_merge os (·.scriptPath) (.inl hsome)
    rw [heq]
    show (Option.map _ (Option.or (Option.map _ _) _)).isSome = true
    simp [hchosen]
  case orthogonal =>
    intro hsome
    obtain ⟨primary, secondary, hchosen, heq⟩ := isSome_or_of_merge os (·.orthogonal) (.inl hsome)
    rw [heq]
    show (Option.or (Option.or _ _) _).isSome = true
    rw [Option.isSome_or, hchosen]
    rfl

end Rank

/-! ## The first report and the merged record -/

section Agreement

variable {k : InstallationKey} {first acc : RInstallation} {reports : List RInstallation}
  {kind : RInstallationKind}

/-- The later report leaves the kind of a record that starts with the first one. -/
def LeavesKind (first later : RInstallation) : Prop :=
  later.kind = first.kind ∨ (first.kind.isSome = true ∧ ¬Outranks later first)

instance (first later : RInstallation) : Decidable (LeavesKind first later) :=
  inferInstanceAs (Decidable (_ ∨ _))

/-- No later report of the key changes the kind of the first. -/
def KindSettled : List RInstallation → Prop
  | [] => True
  | first :: later => ∀ i ∈ later, LeavesKind first i

instance : (reports : List RInstallation) → Decidable (KindSettled reports)
  | [] => isTrue trivial
  | first :: later => inferInstanceAs (Decidable (∀ i ∈ later, LeavesKind first i))

/-- The record has the kind of the first report and at least its rank. -/
structure KindKept (os : Os) (k : InstallationKey) (first acc : RInstallation) : Prop where
  parts : KeyParts os k acc
  kind : acc.kind = first.kind
  priority : installationPriority first ≤ installationPriority acc
  completeness : installationCompleteness first ≤ installationCompleteness acc

/-- INTERNAL: what does not outrank the first report does not outrank the merge. -/
theorem KindKept.not_outranks (h : KindKept os k first acc) (hi : ¬Outranks i first) :
    ¬Outranks i acc := by
  have hspecificity : kindSpecificity acc = kindSpecificity first := by
    unfold kindSpecificity
    rw [h.kind]
  have hpriority := h.priority
  have hcompleteness := h.completeness
  unfold Outranks at hi ⊢
  omega

/-- A merge with a report that leaves the kind keeps it. -/
theorem KindKept.merge (h : NormIdempotent os) (hacc : KindKept os k first acc)
    (hi : KeyParts os k i) (hleaves : LeavesKind first i) :
    KindKept os k first (mergeInstallations os acc i) := by
  refine ⟨keyParts_merge h acc i hacc.parts hi, ?_, ?_,
    hacc.completeness.trans (installationCompleteness_merge h hacc.parts hi)⟩
  · rcases hleaves with hsame | ⟨hsome, hrank⟩
    · rcases kind_merge_cases os acc i with hkind | hkind
      · exact hkind.trans hacc.kind
      · exact hkind.trans hsame
    · rw [merge_of_not_outranks (hacc.not_outranks hrank)]
      obtain ⟨x, hx⟩ := Option.isSome_iff_exists.mp hsome
      show acc.kind.or i.kind = first.kind
      rw [hacc.kind, hx]
      rfl
  · rw [installationPriority_merge]
    exact hacc.priority.trans (le_max_left _ _)

/-- **A settled kind** is the kind of the merged record. -/
theorem kind_of_settled (h : NormIdempotent os) (hparts : ∀ i ∈ reports, KeyParts os k i)
    (hsettled : KindSettled reports) {r : RInstallation}
    (hr : mergeAll (mergeInstallations os) reports = some r) :
    ∃ first, reports.head? = some first ∧ r.kind = first.kind := by
  cases reports with
  | nil => cases hr
  | cons first later =>
    refine ⟨first, rfl, ?_⟩
    have hrun : ∀ (l : List RInstallation) (acc : RInstallation),
        (∀ i ∈ l, KeyParts os k i ∧ LeavesKind first i) → KindKept os k first acc →
          KindKept os k first (l.foldl (mergeInstallations os) acc) := by
      intro l
      induction l with
      | nil => exact fun acc _ hacc => hacc
      | cons i l ih =>
        intro acc hl hacc
        have hi := hl i (by simp)
        exact ih _ (fun j hj => hl j (List.mem_cons_of_mem _ hj)) (hacc.merge h hi.1 hi.2)
    have hfirst : KindKept os k first first :=
      ⟨hparts first (by simp), rfl, le_rfl, le_rfl⟩
    have hkept := hrun later first
      (fun i hi => ⟨hparts i (List.mem_cons_of_mem _ hi), hsettled i hi⟩) hfirst
    simp only [mergeAll, Option.some.injEq] at hr
    exact hr ▸ hkept.kind

/-- The key is among those of the installations. -/
def HasKey (os : Os) (installations : List RInstallation) (k : InstallationKey) : Prop :=
  ∃ i ∈ installations, getInstallationKey os i = some k

/-- The key is among those `find --json --kind` prints. -/
def CollectedKey (os : Os) (kind : RInstallationKind) (reports : List RInstallation)
    (k : InstallationKey) : Prop :=
  ∃ r, (finalMap os collectReporter ⟨[], []⟩ reports).lookup k = some r ∧
    retained (some kind) r

/-- The forwarded reports of a kind have the keys whose first report has the kind. -/
theorem hasKey_forwarded (reports : List RInstallation) (k : InstallationKey) :
    HasKey os ((filedInstallations os reports).forwarded.filter (·.kind = some kind)) k ↔
      ∃ first, (reportsOf os k reports).head? = some first ∧ first.kind = some kind := by
  have hforwarded : reportsOf os k (filedInstallations os reports).forwarded =
      (reportsOf os k reports).take 1 := forwarded_run reports k
  have hmem : ∀ i, i ∈ (filedInstallations os reports).forwarded ∧
      getInstallationKey os i = some k ↔ (reportsOf os k reports).head? = some i := by
    intro i
    rw [← mem_reportsOf]
    show i ∈ reportsOf os k (filedInstallations os reports).forwarded ↔ _
    rw [hforwarded]
    cases reportsOf os k reports with
    | nil => simp
    | cons x l => simp [eq_comm]
  constructor
  · rintro ⟨i, hi, hkey⟩
    obtain ⟨hi, hkind⟩ := List.mem_filter.mp hi
    exact ⟨i, (hmem i).mp ⟨hi, hkey⟩, of_decide_eq_true hkind⟩
  · rintro ⟨i, hfirst, hkind⟩
    obtain ⟨hi, hkey⟩ := (hmem i).mpr hfirst
    exact ⟨i, List.mem_filter.mpr ⟨hi, decide_eq_true hkind⟩, hkey⟩

/-- **The two filters.** The streaming reporters output one installation for each key
whose first report has the kind; the collected output has the keys whose merged record has
it. They agree on every key whose kind is settled by its first report. -/
theorem kind_filter (h : NormIdempotent os) (hbuilt : ∀ i ∈ reports, BuilderBuilt os i)
    (kind : RInstallationKind) (printList : Bool) :
    keptByStdio os printList kind reports = sentByJsonRpc os kind reports ∧
    printedByStdio os printList kind reports =
      (if printList then sentByJsonRpc os kind reports else []) ∧
    (∀ k, HasKey os (sentByJsonRpc os kind reports) k ↔
      ∃ first, (reportsOf os k reports).head? = some first ∧ first.kind = some kind) ∧
    ∀ k, KindSettled (reportsOf os k reports) →
      (HasKey os (sentByJsonRpc os kind reports) k ↔ CollectedKey os kind reports k) := by
  rw [keptByStdio_eq, printedByStdio_eq, sentByJsonRpc_eq]
  refine ⟨rfl, rfl, hasKey_forwarded reports, ?_⟩
  intro k hsettled
  have hparts : ∀ i ∈ reportsOf os k reports, KeyParts os k i := fun i hi =>
    keyParts_of_storedUnder (storedUnder_of_mem_reportsOf h hbuilt i hi)
  rw [hasKey_forwarded, CollectedKey, finalMap_eq]
  constructor
  · rintro ⟨first, hfirst, hkind⟩
    have hne : mergeAll (mergeInstallations os) (reportsOf os k reports) ≠ none := by
      rw [Ne, mergeAll_eq_none]
      intro hnil
      rw [hnil] at hfirst
      cases hfirst
    obtain ⟨r, hr⟩ := Option.ne_none_iff_exists'.mp hne
    obtain ⟨first', hfirst', hsame⟩ := kind_of_settled h hparts hsettled hr
    rw [hfirst, Option.some.injEq] at hfirst'
    subst hfirst'
    exact ⟨r, (lookup_run _ _).trans hr, hsame.trans hkind⟩
  · rintro ⟨r, hr, hretained⟩
    rw [lookup_run] at hr
    obtain ⟨first, hfirst, hsame⟩ := kind_of_settled h hparts hsettled hr
    exact ⟨first, hfirst, hsame.symm.trans hretained⟩

end Agreement

/-! ## A global path that rig installed -/

/-- Found on the path first, and by its manager after that. -/
def sampleGlobalThenRig : List RInstallation :=
  [sampleReport "R" .globalPaths, sampleReport "R" .rig]

/-- INTERNAL: the sample reports are built. -/
theorem sampleGlobalThenRig_builderBuilt :
    ∀ i ∈ sampleGlobalThenRig, BuilderBuilt plainOs i := by
  simp only [sampleGlobalThenRig, List.forall_mem_cons]
  exact ⟨sampleReport_builderBuilt _ _, sampleReport_builderBuilt _ _, by simp⟩

/-- The theorem for the report of the kind before the other. -/
theorem kind_filter_rigFirst :
    HasKey plainOs (sentByJsonRpc plainOs .rig sampleGlobalThenRig.reverse)
        sampleInstallationKey ↔
      CollectedKey plainOs .rig sampleGlobalThenRig.reverse sampleInstallationKey :=
  (kind_filter plainOs_keyPreserving.idempotent
    (fun i hi => sampleGlobalThenRig_builderBuilt i (List.mem_reverse.mp hi)) .rig true).2.2.2
      sampleInstallationKey (by decide)

/-- Nothing of the kind is streamed, and the record has the kind. -/
theorem kind_changes_after_streaming :
    (∀ i ∈ sampleGlobalThenRig, BuilderBuilt plainOs i) ∧
    ¬HasKey plainOs (sentByJsonRpc plainOs .rig sampleGlobalThenRig) sampleInstallationKey ∧
    ¬HasKey plainOs (keptByStdio plainOs true .rig sampleGlobalThenRig)
      sampleInstallationKey ∧
    CollectedKey plainOs .rig sampleGlobalThenRig sampleInstallationKey := by
  have hsent : sentByJsonRpc plainOs .rig sampleGlobalThenRig = [] := by decide
  have hkept : keptByStdio plainOs true .rig sampleGlobalThenRig = [] := by decide
  have hkind : ((finalMap plainOs collectReporter ⟨[], []⟩ sampleGlobalThenRig).lookup
      sampleInstallationKey).map (·.kind) = some (some .rig) := by decide
  rw [hsent, hkept]
  exact ⟨sampleGlobalThenRig_builderBuilt, by simp [HasKey], by simp [HasKey],
    Option.map_eq_some_iff.mp hkind⟩

end REnvTools.Analysis
