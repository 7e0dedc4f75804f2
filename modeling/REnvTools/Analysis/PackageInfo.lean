import REnvTools.Analysis.PackageReadings

/-!
# The package metadata that is cached

A fingerprint and a parse are read from several files at several instants. That a parse lies
between two equal fingerprints shows that nothing it read was modified in between: at the
instant between the first fingerprint and the parse, the directory has the fingerprint and the
parse (`fingerprint_holds`). So an entry is right about one instant (`Certified`), and as no
fingerprint comes back, about every instant that has the fingerprint.

A hit compares with a fingerprint that may again be torn. The parse of the entry is that of the
directory at the instant of the reading that is nearest to the one the entry is about
(`alike_at_clamp`): each file was seen, somewhere in the reading, as it was there.

SRC: crates/ret-conda/src/lib.rs:153-189
-/

set_option autoImplicit false

namespace REnvTools.Analysis

open Program Lib Model Reading

/-! ## Instants -/

variable (host : PackageHost)

/-- The answers about a prefix at an instant. -/
def AnsweredAt (disks : List CondaDisk) (key : PathBuf) (instant : ℕ) (query : MetaQuery)
    (answer : MetaAnswer query) : Prop :=
  ∃ disk, disks[instant]? = some disk ∧ MetaAnswers (host.elsewhere key) (disk key) query answer

/-- A fresh parse of the prefix at an instant gives this and nothing else. -/
def FreshParse (disks : List CondaDisk) (key : PathBuf) (instant : ℕ) (info : RCondaPackageInfo) :
    Prop :=
  ∃ disk, disks[instant]? = some disk ∧ ∀ result,
    (rCondaPackageInfoFrom host.parser).Yields (MetaAnswers (host.elsewhere key) (disk key))
      result ↔ result = some info

/-- The prefix has this fingerprint at an instant. -/
def HasFingerprint (disks : List CondaDisk) (condaPrefix : PathBuf) (instant : ℕ)
    (environment : CondaEnvironmentFingerprint) : Prop :=
  ∃ disk, disks[instant]? = some disk ∧
    (fingerprintFromPrefix condaPrefix).Yields
      (MetaAnswers (host.elsewhere (host.normCase condaPrefix)) (disk (host.normCase condaPrefix)))
      (some environment)

/-- No fingerprint of a directory or of a file comes back. -/
structure NoRecurrence (disks : List CondaDisk) : Prop where
  directory : ∀ key,
    NeverRecurs Prod.fst (disks.map fun disk => (disk key).map (·.directory))
  file : ∀ key name, NeverRecurs MetaFile.fingerprint (disks.map fun disk => fileAt (disk key) name)

variable {host} {disks disks' : List CondaDisk} {key condaPrefix : PathBuf}
  {environment : CondaEnvironmentFingerprint} {info : RCondaPackageInfo}

/-- INTERNAL: a component of the directory at an instant. -/
theorem getElem?_component {α : Type} (key : PathBuf) (component : Option CondaMeta → α)
    {instant : ℕ} {disk : CondaDisk} (h : disks[instant]? = some disk) :
    (disks.map fun disk => component (disk key))[instant]? = some (component (disk key)) := by
  rw [List.getElem?_map, h, Option.map_some]

/-- INTERNAL: what some disk of an instant is like, the disk of the instant is like. -/
theorem exists_of_instant {α : Type} {P : CondaDisk → α → Prop} {instant : ℕ} {disk : CondaDisk}
    (h : ∃ disk' a, disks[instant]? = some disk' ∧ P disk' a)
    (hdisk : disks[instant]? = some disk) : ∃ a, P disk a := by
  obtain ⟨disk', a, hdisk', ha⟩ := h
  rw [hdisk] at hdisk'
  obtain rfl := Option.some.inj hdisk'
  exact ⟨a, ha⟩

/-- The directory between two sightings of its fingerprint. -/
theorem NoRecurrence.directory_between (h : NoRecurrence disks) {m u t : ℕ}
    {diskM diskU : CondaDisk} {condaMeta condaMeta' : CondaMeta}
    (hm : disks[m]? = some diskM) (hmeta : diskM key = some condaMeta)
    (hu : disks[u]? = some diskU) (hmeta' : diskU key = some condaMeta')
    (hfingerprint : condaMeta.fingerprint = condaMeta'.fingerprint)
    (ht : m ≤ t ∧ t ≤ u ∨ u ≤ t ∧ t ≤ m) :
    ∃ disk present, disks[t]? = some disk ∧ disk key = some present ∧
      condaMeta.directory = present.directory := by
  have hfirst := getElem?_component key (Option.map CondaMeta.directory) hm
  have hsecond := getElem?_component key (Option.map CondaMeta.directory) hu
  rw [hmeta, Option.map_some] at hfirst
  rw [hmeta', Option.map_some] at hsecond
  have hsame := (h.directory key).between hfirst hsecond hfingerprint ht
  rw [List.getElem?_map, Option.map_eq_some_iff] at hsame
  obtain ⟨disk, hdisk, hdirectory⟩ := hsame
  obtain ⟨present, hpresent, hdirectory⟩ := Option.map_eq_some_iff.mp hdirectory
  exact ⟨disk, present, hdisk, hpresent, hdirectory.symm⟩

/-- A file between two sightings of its fingerprint. -/
theorem NoRecurrence.file_between (h : NoRecurrence disks) {m u t : ℕ}
    {diskM diskU diskT : CondaDisk} {name : String} {file file' : MetaFile}
    (hm : disks[m]? = some diskM) (hfile : fileAt (diskM key) name = some file)
    (hu : disks[u]? = some diskU) (hfile' : fileAt (diskU key) name = some file')
    (hfingerprint : file.fingerprint = file'.fingerprint)
    (hdisk : disks[t]? = some diskT) (ht : m ≤ t ∧ t ≤ u ∨ u ≤ t ∧ t ≤ m) :
    fileAt (diskT key) name = some file := by
  have hfirst := getElem?_component key (fileAt · name) hm
  have hsecond := getElem?_component key (fileAt · name) hu
  rw [hfile] at hfirst
  rw [hfile'] at hsecond
  have hsame := (h.file key name).between hfirst hsecond hfingerprint ht
  rw [getElem?_component key (fileAt · name) hdisk] at hsame
  exact Option.some.inj hsame

/-! ## What a fingerprint saw -/

/-- What the reading of a fingerprint saw, and when: the directory at `last`, and each watched
file not after it. -/
structure Sightings (host : PackageHost) (disks : List CondaDisk) (key : PathBuf)
    (start last : ℕ) (environment : CondaEnvironmentFingerprint)
    (events : List (Exchange MetaQuery MetaAnswer × ℕ)) : Prop where
  read : FingerprintRead (events.map Prod.fst) environment
  directory : ∃ disk condaMeta, disks[last]? = some disk ∧ disk key = some condaMeta ∧
    environment.condaMeta = condaMeta.fingerprint
  answered : ∀ event ∈ events, start ≤ event.2 ∧ event.2 ≤ last ∧
    AnsweredAt host disks key event.2 event.1.query event.1.answer

/-- **The sightings of a fingerprint.** -/
theorem sightings_of_reads {start stop : ℕ}
    (h : ReadsDuring (AnsweredAt host disks key) start stop (fingerprintFromPrefix condaPrefix)
      (.done (some environment))) :
    ∃ last events, start ≤ last ∧ last ≤ stop ∧
      Sightings host disks key start last environment events ∧
      Follows (fingerprintFromPrefix condaPrefix)
        (events.map Prod.fst ++ [⟨.condaMetaFingerprint, some environment.condaMeta⟩])
        (.done (some environment)) := by
  obtain ⟨-, all, hfollows, hsorted, hall⟩ := h
  obtain ⟨earlier, hearlier, hread⟩ := fingerprintFromPrefix_read hfollows
  obtain ⟨events, final, rfl, rfl, hfinal⟩ := List.map_eq_append_iff.mp hearlier
  obtain ⟨⟨exchange, last⟩, rfl, rfl⟩ := List.map_eq_singleton_iff.mp hfinal
  rw [List.forall_mem_append, List.forall_mem_singleton] at hall
  obtain ⟨hevents, hstart, hstop, disk, hdisk, hanswer⟩ := hall
  obtain ⟨condaMeta, hmeta, hfingerprint⟩ := Option.map_eq_some_iff.mp (Eq.symm hanswer)
  have hlast : ∀ event ∈ events, event.2 ≤ last := by
    intro event hmem
    exact (List.pairwise_append.mp hsorted).2.2 event hmem _ (List.mem_singleton_self _)
  refine ⟨last, events, hstart, hstop, ⟨hread, ?_, ?_⟩, by rwa [hearlier] at hfollows⟩
  · exact ⟨disk, condaMeta, hdisk, hmeta, hfingerprint.symm⟩
  · intro event hmem
    exact ⟨(hevents event hmem).1, hlast event hmem, (hevents event hmem).2.2⟩

/-- A file that the fingerprint shows was there with its fingerprint. -/
theorem Sightings.file {start last : ℕ} {events : List (Exchange MetaQuery MetaAnswer × ℕ)}
    (h : Sightings host disks key start last environment events) {name : String}
    {fingerprint : FileFingerprint} (hshows : Shows environment name fingerprint) :
    ∃ u disk file, start ≤ u ∧ u ≤ last ∧ disks[u]? = some disk ∧
      fileAt (disk key) name = some file ∧ file.fingerprint = fingerprint := by
  obtain ⟨⟨exchange, u⟩, hmem, hexchange⟩ :=
    List.mem_map.mp (h.read.shown name fingerprint hshows)
  obtain rfl : exchange = _ := hexchange
  obtain ⟨hstart, hlast, disk, hdisk, hanswer⟩ := h.answered _ hmem
  obtain ⟨file, hfile, hfingerprint⟩ := Option.map_eq_some_iff.mp (Eq.symm hanswer)
  exact ⟨u, disk, file, hstart, hlast, hdisk, hfile, hfingerprint⟩

/-- INTERNAL: the directory as the fingerprint saw it, at an instant between the sightings of
two readings. -/
theorem Sightings.directory_between {start last start' last' t : ℕ}
    {events events' : List (Exchange MetaQuery MetaAnswer × ℕ)} (hquiet : NoRecurrence disks)
    (hbefore : Sightings host disks key start last environment events)
    (hafter : Sightings host disks key start' last' environment events')
    (hlast : last ≤ t) (hlast' : t ≤ last') :
    ∃ disk present, disks[t]? = some disk ∧ disk key = some present ∧
      environment.condaMeta = present.fingerprint := by
  obtain ⟨diskB, metaB, hdiskB, hmetaB, hfingerprintB⟩ := hbefore.directory
  obtain ⟨diskA, metaA, hdiskA, hmetaA, hfingerprintA⟩ := hafter.directory
  obtain ⟨disk, present, hdisk, hpresent, hdirectory⟩ := hquiet.directory_between hdiskB hmetaB
    hdiskA hmetaA (hfingerprintB.symm.trans hfingerprintA) (.inl ⟨hlast, hlast'⟩)
  exact ⟨disk, present, hdisk, hpresent, hfingerprintB.trans (congrArg Prod.fst hdirectory)⟩

/-- INTERNAL: two instants with one fingerprint of the directory. -/
theorem NoRecurrence.directory_eq (h : NoRecurrence disks) {m t : ℕ} {diskM diskT : CondaDisk}
    {condaMeta condaMeta' : CondaMeta} (hm : disks[m]? = some diskM)
    (hmeta : diskM key = some condaMeta) (ht : disks[t]? = some diskT)
    (hmeta' : diskT key = some condaMeta')
    (hfingerprint : condaMeta.fingerprint = condaMeta'.fingerprint) :
    condaMeta.directory = condaMeta'.directory := by
  obtain ⟨present, hpresent, hdirectory⟩ := exists_of_instant
    (h.directory_between hm hmeta ht hmeta' hfingerprint (t := t) (by omega)) ht
  rw [hmeta'] at hpresent
  obtain rfl := Option.some.inj hpresent
  exact hdirectory

/-- **Two instants that one fingerprint describes** have directories that agree. -/
theorem alike_of_describes (hquiet : NoRecurrence disks) {m t : ℕ} {diskM diskT : CondaDisk}
    {condaMeta condaMeta' : CondaMeta} (hm : disks[m]? = some diskM)
    (hmeta : diskM key = some condaMeta) (ht : disks[t]? = some diskT)
    (hmeta' : diskT key = some condaMeta') (h : Describes environment condaMeta)
    (h' : Describes environment condaMeta') : Alike condaMeta condaMeta' := by
  apply h.alike
  · exact hquiet.directory_eq hm hmeta ht hmeta' (h.directory.symm.trans h'.directory)
  · intro name fingerprint hshows
    obtain ⟨file, hfile, hfingerprint⟩ := h.shown name fingerprint hshows
    obtain ⟨file', hfile', hfingerprint'⟩ := h'.shown name fingerprint hshows
    have hsame := hquiet.file_between (t := t) hm (hmeta ▸ hfile) ht (hmeta' ▸ hfile')
      (hfingerprint.trans hfingerprint'.symm) ht (by omega)
    rw [hfile, ← hmeta', hsame]

/-- **A torn fingerprint that equals one of a single instant**: at the instant of the reading
that is nearest to that one, the directory agreed with it. -/
theorem alike_at_clamp (hquiet : NoRecurrence disks) {m start stop : ℕ} {disk : CondaDisk}
    {condaMeta : CondaMeta} (hdisk : disks[m]? = some disk) (hmeta : disk key = some condaMeta)
    (h : Describes environment condaMeta)
    (hread : ReadsDuring (AnsweredAt host disks key) start stop
      (fingerprintFromPrefix condaPrefix) (.done (some environment))) :
    ∃ disk' condaMeta', disks[clamp start stop m]? = some disk' ∧ disk' key = some condaMeta' ∧
      Alike condaMeta condaMeta' := by
  obtain ⟨last, events, hstart, hstop, hsightings, -⟩ := sightings_of_reads hread
  obtain ⟨diskL, metaL, hdiskL, hmetaL, hfingerprintL⟩ := hsightings.directory
  obtain ⟨disk', present, hdisk', hpresent, hdirectory⟩ := hquiet.directory_between hdisk hmeta
    hdiskL hmetaL (h.directory.symm.trans hfingerprintL) (clamp_between m hstart hstop)
  refine ⟨disk', present, hdisk', hpresent, h.alike hdirectory fun name fingerprint hshows => ?_⟩
  obtain ⟨file, hfile, hfingerprint⟩ := h.shown name fingerprint hshows
  obtain ⟨u, diskU, file', hu, hu', hdiskU, hfile', hfingerprint'⟩ := hsightings.file hshows
  have hsame := hquiet.file_between hdisk (hmeta ▸ hfile) hdiskU hfile'
    (hfingerprint.trans hfingerprint'.symm) hdisk' (clamp_between m hu (hu'.trans hstop))
  rw [hfile, ← hpresent, hsame]

/-! ## A parse between two fingerprints -/

/-- **Between two equal fingerprints** the fingerprint describes the directory, if the second
is read after the first. -/
theorem describes_between (hquiet : NoRecurrence disks) {start last start' last' t : ℕ}
    {events events' : List (Exchange MetaQuery MetaAnswer × ℕ)}
    (hbefore : Sightings host disks key start last environment events)
    (hafter : Sightings host disks key start' last' environment events')
    (hlast : last ≤ t) (ht : t ≤ start') (hstart' : start' ≤ last') :
    ∃ disk condaMeta, disks[t]? = some disk ∧ disk key = some condaMeta ∧
      Describes environment condaMeta := by
  obtain ⟨disk, condaMeta, hdisk, hmeta, hfingerprint⟩ :=
    hbefore.directory_between hquiet hafter hlast (ht.trans hstart')
  refine ⟨disk, condaMeta, hdisk, hmeta, hfingerprint, ?_, ?_⟩
  · intro name fingerprint hshows
    obtain ⟨u, diskU, file, -, hu, hdiskU, hfile, hfileU⟩ := hbefore.file hshows
    obtain ⟨u', diskU', file', hu', -, hdiskU', hfile', hfileU'⟩ := hafter.file hshows
    have hsame := hquiet.file_between hdiskU hfile hdiskU' hfile' (hfileU.trans hfileU'.symm)
      hdisk (by omega)
    exact ⟨file, hmeta ▸ hsame, hfileU⟩
  · -- The names were the same whenever the second fingerprint was given an answer.
    intro name hwatched hname
    refine hafter.read.complete (fun exchange hmem => ?_) hwatched hname
    obtain ⟨event, hevent, rfl⟩ := List.mem_map.mp hmem
    obtain ⟨hfirst, hfinal, diskE, hdiskE, hanswer⟩ := hafter.answered event hevent
    obtain ⟨present, hpresent, hfingerprintE⟩ := exists_of_instant
      (hbefore.directory_between hquiet hafter (hlast.trans (ht.trans hfirst)) hfinal) hdiskE
    rw [hquiet.directory_eq hdisk hmeta hdiskE hpresent (hfingerprint.symm.trans hfingerprintE)]
    rw [hpresent] at hanswer
    exact consistent_of_answers hanswer

/-- INTERNAL: what the second fingerprint was told about files is so at any instant that the
fingerprint describes, if the directory did not change since. -/
theorem Describes.answers {condaMeta condaMeta' : CondaMeta} (h : Describes environment condaMeta)
    (hdirectory : condaMeta'.directory = condaMeta.directory)
    {elsewhere : String → Option (Option String)} {query : MetaQuery} {answer : MetaAnswer query}
    (hanswer : MetaAnswers elsewhere (some condaMeta') query answer)
    (hquery : AboutFingerprints query)
    (hnoted : ∀ name fingerprint,
      (⟨query, answer⟩ : Exchange MetaQuery MetaAnswer) = ⟨.fingerprint name, some fingerprint⟩ →
        Shows environment name fingerprint) :
    MetaAnswers elsewhere (some condaMeta) query answer := by
  have hconsistent := consistent_of_answers hanswer
  rw [hdirectory] at hconsistent
  cases query with
  | pathExists name =>
    have hname : answer = true ↔ condaMeta.directory.2 name = some true := hconsistent
    rw [← fileAt_isSome, Bool.coe_iff_coe] at hname
    exact hname
  | fingerprint name =>
    cases answer with
    | none =>
      have hname : (none : Option FileFingerprint).isSome = true ↔
        condaMeta.directory.2 name = some true := hconsistent
      rw [← fileAt_isSome, Option.isSome_none, Bool.coe_iff_coe, eq_comm,
        Option.isSome_eq_false_iff, Option.isNone_iff_eq_none] at hname
      rw [MetaAnswers, hname, Option.map_none]
    | some fingerprint =>
      obtain ⟨file, hfile, hfingerprint⟩ := h.shown name fingerprint (hnoted _ _ rfl)
      rw [MetaAnswers, hfile, Option.map_some, hfingerprint]
  | condaMetaFingerprint =>
    have hfingerprint : condaMeta'.fingerprint = condaMeta.fingerprint :=
      congrArg Prod.fst hdirectory
    rwa [MetaAnswers, Option.map_some, ← hfingerprint]
  | readDir => exact answers_readDir hdirectory hanswer
  | readToString name => exact hquery.elim

section Between

variable {start last start' last' t : ℕ}
  {events events' : List (Exchange MetaQuery MetaAnswer × ℕ)} {disk : CondaDisk}
  {condaMeta : CondaMeta}

/-- INTERNAL: the second fingerprint is that of the directory at an instant between the two. -/
theorem yields_fingerprint_between (hquiet : NoRecurrence disks)
    (hbefore : Sightings host disks key start last environment events)
    (hafter : Sightings host disks key start' last' environment events')
    (hfollows : Follows (fingerprintFromPrefix condaPrefix)
      (events'.map Prod.fst ++ [⟨.condaMetaFingerprint, some environment.condaMeta⟩])
      (.done (some environment)))
    (hlast : last ≤ t) (ht : t ≤ start') (hdisk : disks[t]? = some disk)
    (hmeta : disk key = some condaMeta) (h : Describes environment condaMeta) :
    (fingerprintFromPrefix condaPrefix).Yields
      (MetaAnswers (host.elsewhere key) (some condaMeta)) (some environment) := by
  have hasks := (fingerprintFromPrefix_asks condaPrefix).of_follows hfollows
  refine ⟨_, hfollows, ?_⟩
  rw [List.forall_mem_append, List.forall_mem_singleton]
  constructor
  · intro exchange hmem
    obtain ⟨event, hevent, rfl⟩ := List.mem_map.mp hmem
    obtain ⟨hfirst, hfinal, diskE, hdiskE, hanswer⟩ := hafter.answered event hevent
    obtain ⟨present, hpresent, hfingerprint⟩ := exists_of_instant
      (hbefore.directory_between hquiet hafter (hlast.trans (ht.trans hfirst)) hfinal) hdiskE
    have hdirectory := hquiet.directory_eq hdiskE hpresent hdisk hmeta
      (hfingerprint.symm.trans h.directory)
    rw [hpresent] at hanswer
    refine h.answers hdirectory hanswer (hasks _ (List.mem_append_left _ hmem)) ?_
    intro name fingerprint hexchange
    exact hafter.read.noted name fingerprint (List.mem_map.mpr ⟨event, hevent, hexchange⟩)
  · rw [MetaAnswers, Option.map_some, h.directory]

/-- INTERNAL: a parse between the two is that of the directory at an instant between them. -/
theorem yields_parse_between (hquiet : NoRecurrence disks)
    (hbefore : Sightings host disks key start last environment events)
    (hafter : Sightings host disks key start' last' environment events') {stop : ℕ}
    (hlast : last ≤ stop) (hlast' : start' ≤ last') {result : Option RCondaPackageInfo}
    (hparse : ReadsDuring (AnsweredAt host disks key) stop start'
      (rCondaPackageInfoFrom host.parser) (.done result))
    (hdisk : disks[t]? = some disk) (hmeta : disk key = some condaMeta)
    (h : Describes environment condaMeta) :
    (rCondaPackageInfoFrom host.parser).Yields
      (MetaAnswers (host.elsewhere key) (some condaMeta)) result := by
  obtain ⟨-, events, hfollows, -, hevents⟩ := hparse
  have hasks := (rCondaPackageInfoFrom_asks host.parser).of_follows hfollows
  refine ⟨_, hfollows, fun exchange hmem => ?_⟩
  obtain ⟨event, hevent, rfl⟩ := List.mem_map.mp hmem
  obtain ⟨hfirst, hfinal, diskE, hdiskE, hanswer⟩ := hevents event hevent
  obtain ⟨present, hpresent, hpresent_describes⟩ := exists_of_instant
    (describes_between hquiet hbefore hafter (hlast.trans hfirst) hfinal hlast') hdiskE
  have halike := alike_of_describes hquiet hdiskE hpresent hdisk hmeta hpresent_describes h
  rw [hpresent] at hanswer
  exact halike.answers (hasks _ hmem) hanswer

end Between

/-- **A parse between two equal fingerprints**: where the first ends, the directory has the
fingerprint, and what was parsed is its parse. -/
theorem fingerprint_holds (hquiet : NoRecurrence disks) {start stop mid now : ℕ}
    {result : Option RCondaPackageInfo}
    (hbefore : ReadsDuring (AnsweredAt host disks key) start stop
      (fingerprintFromPrefix condaPrefix) (.done (some environment)))
    (hparse : ReadsDuring (AnsweredAt host disks key) stop mid
      (rCondaPackageInfoFrom host.parser) (.done result))
    (hafter : ReadsDuring (AnsweredAt host disks key) mid now
      (fingerprintFromPrefix condaPrefix) (.done (some environment))) :
    ∃ disk, disks[stop]? = some disk ∧
      (fingerprintFromPrefix condaPrefix).Yields (MetaAnswers (host.elsewhere key) (disk key))
        (some environment) ∧
      (rCondaPackageInfoFrom host.parser).Yields (MetaAnswers (host.elsewhere key) (disk key))
        result := by
  obtain ⟨last, events, -, hlast, hB, -⟩ := sightings_of_reads hbefore
  obtain ⟨last', events', hlast', -, hA, hfollows⟩ := sightings_of_reads hafter
  obtain ⟨disk, condaMeta, hdisk, hmeta, hdescribes⟩ :=
    describes_between hquiet hB hA hlast hparse.1 hlast'
  refine ⟨disk, hdisk, ?_, ?_⟩
  · rw [hmeta]
    exact yields_fingerprint_between hquiet hB hA hfollows hlast hparse.1 hdisk hmeta hdescribes
  · rw [hmeta]
    exact yields_parse_between hquiet hB hA hlast hlast' hparse hdisk hmeta hdescribes

/-! ## The invariant -/

/-- At some instant the prefix had the fingerprint of the entry, and its parse. -/
def Certified (host : PackageHost) (disks : List CondaDisk) (key : PathBuf)
    (cached : CachedPackageInfo) : Prop :=
  ∃ (condaPrefix : PathBuf) (instant : ℕ) (disk : CondaDisk),
    host.normCase condaPrefix = key ∧ disks[instant]? = some disk ∧
    (fingerprintFromPrefix condaPrefix).Yields (MetaAnswers (host.elsewhere key) (disk key))
      (some cached.fingerprint) ∧
    (rCondaPackageInfoFrom host.parser).Yields (MetaAnswers (host.elsewhere key) (disk key))
      (some cached.info)

/-- Nothing recurred so far, and each entry is certified. -/
structure PackagesSound (host : PackageHost) (w : PackageWorld) : Prop where
  quiet : NoRecurrence w.disks
  cache : ∀ key cached, w.cache.lookup key = some cached → Certified host w.disks key cached

/-- What a call has read, and when; the readings of a call follow each other. -/
def PackageCallSound (host : PackageHost) (w : PackageWorld) : PackageCall → Prop
  | .fingerprinting condaPrefix start stop left =>
    stop ≤ w.now ∧ ReadsDuring (AnsweredAt host w.disks (host.normCase condaPrefix)) start stop
      (fingerprintFromPrefix condaPrefix) left
  | .fingerprinted condaPrefix start stop before =>
    stop ≤ w.now ∧ ReadsDuring (AnsweredAt host w.disks (host.normCase condaPrefix)) start stop
      (fingerprintFromPrefix condaPrefix) (.done before)
  | .hit condaPrefix start stop info =>
    ∃ instant, start ≤ instant ∧ instant ≤ stop ∧
      FreshParse host w.disks (host.normCase condaPrefix) instant info
  | .parsing condaPrefix before left =>
    ∃ start stop,
      ReadsDuring (AnsweredAt host w.disks (host.normCase condaPrefix)) start stop
        (fingerprintFromPrefix condaPrefix) (.done before) ∧
      ReadsDuring (AnsweredAt host w.disks (host.normCase condaPrefix)) stop w.now
        (rCondaPackageInfoFrom host.parser) left
  | .validating condaPrefix before info left =>
    ∃ start stop mid,
      ReadsDuring (AnsweredAt host w.disks (host.normCase condaPrefix)) start stop
        (fingerprintFromPrefix condaPrefix) (.done before) ∧
      ReadsDuring (AnsweredAt host w.disks (host.normCase condaPrefix)) stop mid
        (rCondaPackageInfoFrom host.parser) (.done (some info)) ∧
      ReadsDuring (AnsweredAt host w.disks (host.normCase condaPrefix)) mid w.now
        (fingerprintFromPrefix condaPrefix) left
  | _ => True

/-! ## The past stays -/

/-- INTERNAL: an instant of the past. -/
theorem getElem?_of_prefix (h : disks <+: disks') {instant : ℕ} {disk : CondaDisk}
    (hdisk : disks[instant]? = some disk) : disks'[instant]? = some disk := by
  obtain ⟨rest, rfl⟩ := h
  rw [List.getElem?_append_left (List.getElem?_eq_some_iff.mp hdisk).1]
  exact hdisk

/-- INTERNAL: an answer remains that of its instant. -/
theorem AnsweredAt.mono (h : disks <+: disks') (instant : ℕ) (query : MetaQuery)
    (answer : MetaAnswer query) (hanswer : AnsweredAt host disks key instant query answer) :
    AnsweredAt host disks' key instant query answer := by
  obtain ⟨disk, hdisk, hanswer⟩ := hanswer
  exact ⟨disk, getElem?_of_prefix h hdisk, hanswer⟩

/-- INTERNAL: what was parsed remains fresh for its instant. -/
theorem FreshParse.mono (h : disks <+: disks') {instant : ℕ}
    (hfresh : FreshParse host disks key instant info) :
    FreshParse host disks' key instant info := by
  obtain ⟨disk, hdisk, hresult⟩ := hfresh
  exact ⟨disk, getElem?_of_prefix h hdisk, hresult⟩

/-- INTERNAL: what is certified remains so. -/
theorem Certified.mono (h : disks <+: disks') {cached : CachedPackageInfo}
    (hcertified : Certified host disks key cached) : Certified host disks' key cached := by
  obtain ⟨condaPrefix, instant, disk, hkey, hdisk, hyields⟩ := hcertified
  exact ⟨condaPrefix, instant, disk, hkey, getElem?_of_prefix h hdisk, hyields⟩

variable {w w' : PackageWorld} {call call' : PackageCall}

/-- INTERNAL: a longer history is a later instant. -/
theorem now_le_of_prefix (h : w.disks <+: w'.disks) : w.now ≤ w'.now := by
  have hlength := h.length_le
  simp only [PackageWorld.disks, List.length_append, List.length_singleton] at hlength
  exact Nat.le_of_add_le_add_right hlength

/-- What a call has read stays read. -/
theorem packageCallSound_mono (h : w.disks <+: w'.disks) (hcall : PackageCallSound host w call) :
    PackageCallSound host w' call := by
  have hnow := now_le_of_prefix h
  cases call with
  | fingerprinting condaPrefix start stop left =>
    exact ⟨hcall.1.trans hnow, hcall.2.mono le_rfl (AnsweredAt.mono h)⟩
  | fingerprinted condaPrefix start stop before =>
    exact ⟨hcall.1.trans hnow, hcall.2.mono le_rfl (AnsweredAt.mono h)⟩
  | hit condaPrefix start stop info =>
    obtain ⟨instant, hstart, hstop, hfresh⟩ := hcall
    exact ⟨instant, hstart, hstop, hfresh.mono h⟩
  | parsing condaPrefix before left =>
    obtain ⟨start, stop, hbefore, hleft⟩ := hcall
    exact ⟨start, stop, hbefore.mono le_rfl (AnsweredAt.mono h),
      hleft.mono hnow (AnsweredAt.mono h)⟩
  | validating condaPrefix before info left =>
    obtain ⟨start, stop, mid, hbefore, hparse, hleft⟩ := hcall
    exact ⟨start, stop, mid, hbefore.mono le_rfl (AnsweredAt.mono h),
      hparse.mono le_rfl (AnsweredAt.mono h), hleft.mono hnow (AnsweredAt.mono h)⟩
  | returned _ _ | finding | retaining _ | found | modifying | modified => trivial

/-- INTERNAL: only a modification adds an instant. -/
theorem disks_of_step (h : PackageStep host w call w' call') :
    w'.disks = w.disks ∨ ∃ disk, w.Modifies disk ∧ w'.disks = w.disks ++ [disk] := by
  cases h with
  | modify hmodifies => exact .inr ⟨_, hmodifies, rfl⟩
  | _ => exact .inl rfl

/-- INTERNAL: a step of a call only extends the history. -/
theorem disks_prefix_of_step (h : PackageStep host w call w' call') : w.disks <+: w'.disks := by
  obtain hsame | ⟨disk, -, hnew⟩ := disks_of_step h
  · rw [hsame]
  · rw [hnew]
    exact List.prefix_append _ _

/-- A modification brings fingerprints that were never there. -/
theorem noRecurrence_of_step (h : PackageStep host w call w' call')
    (hquiet : NoRecurrence w.disks) : NoRecurrence w'.disks := by
  obtain hsame | ⟨disk, hmodifies, hnew⟩ := disks_of_step h
  · rwa [hsame]
  · rw [hnew]
    constructor
    · intro key
      rw [List.map_append]
      exact (hquiet.directory key).snoc (hmodifies.directory key)
    · intro key name
      rw [List.map_append]
      exact (hquiet.file key name).snoc (hmodifies.file key name)

/-! ## The steps -/

/-- INTERNAL: the present answers. -/
theorem answeredAt_now {query : MetaQuery} {answer : MetaAnswer query}
    (h : w.Answers host condaPrefix query answer) :
    AnsweredAt host w.disks (host.normCase condaPrefix) w.now query answer :=
  ⟨w.disk, List.getElem?_concat_length .., h⟩

/-- INTERNAL: the entry of a hit. -/
theorem cached_eq_some {before : Option CondaEnvironmentFingerprint}
    (h : w.cached key before = some info) :
    ∃ cached, before = some cached.fingerprint ∧ cached.info = info ∧
      w.cache.lookup key = some cached := by
  obtain ⟨fingerprint, rfl, hmap⟩ := Option.bind_eq_some_iff.mp h
  obtain ⟨cached, hfilter, rfl⟩ := Option.map_eq_some_iff.mp hmap
  obtain ⟨hlookup, hfingerprint⟩ := Option.filter_eq_some_iff.mp hfilter
  exact ⟨cached, by rw [of_decide_eq_true hfingerprint], rfl, hlookup⟩

/-- INTERNAL: entries of the cache after one is erased were there before. -/
theorem lookup_of_erase {cache : PackageInfoCache} {key' : PathBuf} {cached : CachedPackageInfo}
    (h : (cache.erase key).lookup key' = some cached) : cache.lookup key' = some cached := by
  by_cases hkey : key' = key
  · rw [hkey, Finmap.lookup_erase] at h
    cases h
  · rwa [Finmap.lookup_erase_ne hkey] at h

/-- INTERNAL: an entry of the cache after `record` is the recorded one or was there before. -/
theorem lookup_record {before after : Option CondaEnvironmentFingerprint} {key' : PathBuf}
    {cached : CachedPackageInfo} (h : (w.record key before after info).lookup key' = some cached) :
    (key' = key ∧ before = some cached.fingerprint ∧ after = some cached.fingerprint ∧
      cached.info = info) ∨ w.cache.lookup key' = some cached := by
  unfold PackageWorld.record at h
  split at h
  · split at h
    · rename_i fingerprint hbefore
      by_cases hkey : key' = key
      · rw [hkey, Finmap.lookup_insert] at h
        obtain rfl := Option.some.inj h
        exact .inl ⟨hkey, hbefore, rfl, rfl⟩
      · rw [Finmap.lookup_insert_of_ne _ hkey] at h
        exact .inr h
    · exact .inr (lookup_of_erase h)
  · exact .inr (lookup_of_erase h)

/-- INTERNAL: a parse that gives this, gives nothing else. -/
theorem freshParse_of_yields {instant : ℕ} {disk : CondaDisk} (hdisk : disks[instant]? = some disk)
    (h : (rCondaPackageInfoFrom host.parser).Yields (MetaAnswers (host.elsewhere key) (disk key))
      (some info)) : FreshParse host disks key instant info := by
  refine ⟨disk, hdisk, fun result => ⟨fun hresult => parse_unique hresult h, ?_⟩⟩
  rintro rfl
  exact h

/-- INTERNAL: a directory that agrees with a parsed one has its parse. -/
theorem freshParse_of_alike {instant : ℕ} {disk : CondaDisk} {condaMeta condaMeta' : CondaMeta}
    (halike : Alike condaMeta condaMeta') (hdisk : disks[instant]? = some disk)
    (hmeta : disk key = some condaMeta')
    (h : (rCondaPackageInfoFrom host.parser).Yields
      (MetaAnswers (host.elsewhere key) (some condaMeta)) (some info)) :
    FreshParse host disks key instant info := by
  apply freshParse_of_yields hdisk
  rw [hmeta]
  exact parse_congr halike h

/-- **A hit** returns the parse of an instant of its reading. -/
theorem freshParse_of_hit (hquiet : NoRecurrence disks) {cached : CachedPackageInfo}
    (hcertified : Certified host disks key cached) {start stop : ℕ}
    (hread : ReadsDuring (AnsweredAt host disks key) start stop
      (fingerprintFromPrefix condaPrefix) (.done (some cached.fingerprint))) :
    ∃ instant, start ≤ instant ∧ instant ≤ stop ∧
      FreshParse host disks key instant cached.info := by
  obtain ⟨_, m, disk, -, hdisk, hfingerprint, hinfo⟩ := hcertified
  obtain ⟨condaMeta, hmeta, hdescribes⟩ := describes_of_yields hfingerprint
  obtain ⟨disk', condaMeta', hdisk', hmeta', halike⟩ :=
    alike_at_clamp hquiet hdisk hmeta hdescribes hread
  refine ⟨clamp start stop m, le_clamp m hread.1, clamp_le m hread.1, ?_⟩
  rw [hmeta] at hinfo
  exact freshParse_of_alike halike hdisk' hmeta' hinfo

/-- **An entry** has the parse of every instant that has its fingerprint. -/
theorem freshParse_of_certified (hquiet : NoRecurrence disks) {cached : CachedPackageInfo}
    (hcertified : Certified host disks (host.normCase condaPrefix) cached) {instant : ℕ}
    (h : HasFingerprint host disks condaPrefix instant cached.fingerprint) :
    FreshParse host disks (host.normCase condaPrefix) instant cached.info := by
  obtain ⟨_, m, disk, -, hdisk, hfingerprint, hinfo⟩ := hcertified
  obtain ⟨disk', hdisk', hfingerprint'⟩ := h
  obtain ⟨condaMeta, hmeta, hdescribes⟩ := describes_of_yields hfingerprint
  obtain ⟨condaMeta', hmeta', hdescribes'⟩ := describes_of_yields hfingerprint'
  have halike := alike_of_describes hquiet hdisk hmeta hdisk' hmeta' hdescribes hdescribes'
  rw [hmeta] at hinfo
  exact freshParse_of_alike halike hdisk' hmeta' hinfo

/-- INTERNAL: each entry after a step was there before, or is the one that was recorded. -/
theorem certified_of_step (h : PackageStep host w call w' call') (hw : PackagesSound host w)
    (hcall : PackageCallSound host w call) (key : PathBuf) (cached : CachedPackageInfo)
    (hlookup : w'.cache.lookup key = some cached) : Certified host w.disks key cached := by
  cases h with
  | noInfo => exact hw.cache key cached (lookup_of_erase hlookup)
  | drop _ _ _ => exact hw.cache key cached (lookup_of_erase hlookup)
  | record =>
    obtain ⟨rfl, rfl, rfl, rfl⟩ | hold := lookup_record hlookup
    · obtain ⟨start, stop, mid, hbefore, hparse, hafter⟩ := hcall
      obtain ⟨disk, hdisk, hyields⟩ := fingerprint_holds hw.quiet hbefore hparse hafter
      exact ⟨_, stop, disk, rfl, hdisk, hyields⟩
    · exact hw.cache key cached hold
  | _ => exact hw.cache key cached hlookup

/-- A call keeps what it knows. -/
theorem packageCallSound_step (h : PackageStep host w call w' call') (hw : PackagesSound host w)
    (hcall : PackageCallSound host w call) : PackageCallSound host w' call' := by
  cases h with
  | readBefore hanswer =>
    exact ⟨le_rfl, hcall.2.snoc hcall.1 (answeredAt_now hanswer)⟩
  | fingerprint => exact hcall
  | hit hfree hcached =>
    obtain ⟨cached, rfl, rfl, hlookup⟩ := cached_eq_some hcached
    exact freshParse_of_hit hw.quiet (hw.cache _ cached hlookup) hcall.2
  | miss hfree hcached =>
    obtain ⟨hnow, hbefore⟩ := hcall
    exact ⟨_, _, hbefore, (ReadsDuring.refl _ _).mono hnow fun _ _ _ h => h⟩
  | parse hanswer =>
    obtain ⟨start, stop, hbefore, hleft⟩ := hcall
    exact ⟨start, stop, hbefore, hleft.snoc le_rfl (answeredAt_now hanswer)⟩
  | parsed =>
    obtain ⟨start, stop, hbefore, hparse⟩ := hcall
    exact ⟨start, stop, _, hbefore, hparse, ReadsDuring.refl _ _⟩
  | readAfter hanswer =>
    obtain ⟨start, stop, mid, hbefore, hparse, hleft⟩ := hcall
    exact ⟨start, stop, mid, hbefore, hparse, hleft.snoc le_rfl (answeredAt_now hanswer)⟩
  | noInfo | record | startRetain _ | retain _ _ _ | drop _ _ _ | endRetain _ | modify _ => trivial

/-- **The invariant of every run.** -/
theorem packagesSound_of_reachable {s : PackageState} (h : (packageInfoCache host).Reachable s) :
    PackagesSound host s.shared ∧
      ∀ (i : ℕ) call, s.tasks[i]? = some call → PackageCallSound host s.shared call := by
  refine TaskSystem.invariant (G := PackagesSound host)
    (L := fun w _ call => PackageCallSound host w call) ?_ ?_ ?_ ?_ h
  · intro w hinit
    have hdisks : w.disks = [w.disk] := by
      rw [PackageWorld.disks, hinit.earlier, List.nil_append]
    refine ⟨⟨fun key => ?_, fun key name => ?_⟩, fun key cached hlookup => ?_⟩
    · rw [hdisks]
      exact neverRecurs_singleton _
    · rw [hdisks]
      exact neverRecurs_singleton _
    · rw [hinit.cache, Finmap.lookup_empty] at hlookup
      cases hlookup
  · intro s call _ _ harrival
    cases harrival with
    | getPackageInfo condaPrefix => exact ⟨le_rfl, ReadsDuring.refl _ _⟩
    | find => trivial
    | modify => trivial
  · intro s i call _ w' call' _ _ hstep hw hcall
    refine ⟨⟨noRecurrence_of_step hstep hw.quiet, fun key cached hlookup => ?_⟩,
      packageCallSound_step hstep hw hcall⟩
    exact (certified_of_step hstep hw hcall key cached hlookup).mono (disks_prefix_of_step hstep)
  · intro s i call _ w' call' j other _ _ hstep _ _ _ _ hother
    exact packageCallSound_mono (disks_prefix_of_step hstep) hother

/-! ## Soundness -/

/-- The entry is of an environment that some instant had the fingerprint of, and has the parse
of every instant that has it. -/
def PackageEntrySound (host : PackageHost) (disks : List CondaDisk) (key : PathBuf)
    (cached : CachedPackageInfo) : Prop :=
  (∃ condaPrefix instant, host.normCase condaPrefix = key ∧
    HasFingerprint host disks condaPrefix instant cached.fingerprint) ∧
  ∀ condaPrefix instant, host.normCase condaPrefix = key →
    HasFingerprint host disks condaPrefix instant cached.fingerprint →
    FreshParse host disks key instant cached.info

/-- **The cache of package metadata is sound**: whatever is modified while the calls read,
each entry is the parse of the environment that has its fingerprint, and each hit is the parse
of its prefix at an instant between the start of the call and the end of its fingerprint. -/
theorem packageInfo_sound {s : PackageState} (h : (packageInfoCache host).Reachable s) :
    (∀ key cached, s.shared.cache.lookup key = some cached →
      PackageEntrySound host s.shared.disks key cached) ∧
    ∀ condaPrefix start stop info, PackageCall.hit condaPrefix start stop info ∈ s.tasks →
      ∃ instant, start ≤ instant ∧ instant ≤ stop ∧
        FreshParse host s.shared.disks (host.normCase condaPrefix) instant info := by
  obtain ⟨hw, hcalls⟩ := packagesSound_of_reachable h
  constructor
  · intro key cached hlookup
    have hcertified := hw.cache key cached hlookup
    constructor
    · obtain ⟨condaPrefix, instant, disk, rfl, hdisk, hfingerprint, -⟩ := hcertified
      exact ⟨condaPrefix, instant, rfl, disk, hdisk, hfingerprint⟩
    · rintro condaPrefix instant rfl hfingerprint
      exact freshParse_of_certified hw.quiet hcertified hfingerprint
  · intro condaPrefix start stop info hmem
    obtain ⟨i, hi⟩ := List.mem_iff_getElem?.mp hmem
    exact hcalls i _ hi

/-! ## Calls that nothing disturbs -/

section Undisturbed

variable {tasks : List PackageCall}

/-- INTERNAL: the last call steps. -/
theorem reachable_stepLast (hs : (packageInfoCache host).Reachable ⟨w, tasks ++ [call]⟩)
    (h : PackageStep host w call w' call') :
    (packageInfoCache host).Reachable ⟨w', tasks ++ [call']⟩ := by
  have hlast : (tasks ++ [call])[tasks.length]? = some call := List.getElem?_concat_length
  have hnext := Machine.Reachable.step hs (TaskSystem.Step.step (a := ()) hlast h)
  rwa [List.set_append_right _ _ le_rfl, Nat.sub_self, List.set_cons_zero] at hnext

/-- INTERNAL: the last call reads to the end; `wrap` is what it keeps beside the reading. -/
theorem reachable_reads {ρ : Type} {program : MetaReading ρ} {result : ρ}
    (wrap : MetaReading ρ → PackageCall)
    (hwrap : ∀ query next answer, w.Answers host condaPrefix query answer →
      PackageStep host w (wrap (.ask query next)) w (wrap (next answer)))
    (hyields : program.Yields (w.Answers host condaPrefix) result)
    (hs : (packageInfoCache host).Reachable ⟨w, tasks ++ [wrap program]⟩) :
    (packageInfoCache host).Reachable ⟨w, tasks ++ [wrap (.done result)]⟩ := by
  induction program with
  | done result' =>
    obtain rfl := yields_done.mp hyields
    exact hs
  | ask query next ih =>
    obtain ⟨answer, hanswer, hnext⟩ := yields_ask.mp hyields
    exact ih answer hnext (reachable_stepLast hs (hwrap query next answer hanswer))

/-- INTERNAL: the last call has read its first fingerprint. -/
theorem reachable_fingerprinted (hs : (packageInfoCache host).Reachable ⟨w, tasks⟩)
    {before : Option CondaEnvironmentFingerprint}
    (hfingerprint : (fingerprintFromPrefix condaPrefix).Yields (w.Answers host condaPrefix)
      before) :
    (packageInfoCache host).Reachable
      ⟨w, tasks ++ [.fingerprinted condaPrefix w.now w.now before]⟩ := by
  have hcalled := Machine.Reachable.step hs (.spawn (.getPackageInfo condaPrefix))
  have hread := reachable_reads (.fingerprinting condaPrefix w.now w.now)
    (fun _ _ _ hanswer => .readBefore hanswer) hfingerprint hcalled
  exact reachable_stepLast hread .fingerprint

/-- **A call that nothing disturbs** is a hit if its prefix is cached with its fingerprint. -/
theorem reachable_hit (hs : (packageInfoCache host).Reachable ⟨w, tasks⟩)
    (hfree : w.locked = false)
    (hfingerprint : (fingerprintFromPrefix condaPrefix).Yields (w.Answers host condaPrefix)
      (some environment))
    (hcached : w.cached (host.normCase condaPrefix) (some environment) = some info) :
    (packageInfoCache host).Reachable ⟨w, tasks ++ [.hit condaPrefix w.now w.now info]⟩ :=
  reachable_stepLast (reachable_fingerprinted hs hfingerprint) (.hit hfree hcached)

/-- **A call that nothing disturbs** caches its parse otherwise. -/
theorem reachable_record (hs : (packageInfoCache host).Reachable ⟨w, tasks⟩)
    (hfree : w.locked = false)
    (hfingerprint : (fingerprintFromPrefix condaPrefix).Yields (w.Answers host condaPrefix)
      (some environment))
    (hmiss : w.cached (host.normCase condaPrefix) (some environment) = none)
    (hinfo : (rCondaPackageInfoFrom host.parser).Yields (w.Answers host condaPrefix)
      (some info)) :
    (packageInfoCache host).Reachable
      ⟨{ w with
          cache := w.cache.insert (host.normCase condaPrefix) ⟨environment, info⟩
          locked := false },
        tasks ++ [.returned condaPrefix (some info)]⟩ := by
  have hmissed := reachable_stepLast (reachable_fingerprinted hs hfingerprint) (.miss hfree hmiss)
  have hparsed := reachable_reads (w := { w with locked := true })
    (.parsing condaPrefix (some environment)) (fun _ _ _ hanswer => .parse hanswer) hinfo hmissed
  have hvalidated := reachable_reads (w := { w with locked := true })
    (.validating condaPrefix (some environment) info) (fun _ _ _ hanswer => .readAfter hanswer)
    hfingerprint (reachable_stepLast hparsed .parsed)
  have hrecorded := reachable_stepLast hvalidated .record
  rwa [PackageWorld.record, if_pos rfl] at hrecorded

end Undisturbed

/-! ## A run -/

/-- A host on which one package file can be parsed. -/
def seuratHost : PackageHost where
  windows := false
  normCase := id
  canonicalize := some
  parser :=
    { isDecimal := Char.isDigit
      fromStr := fun text =>
        if text = "\x7b\"version\":\"4.3.3\",\"subdir\":\"linux-64\"\x7d" then
          some ⟨some "4.3.3", some "linux-64", none⟩
        else none }
  elsewhere := fun _ _ => none

/-- The prefix of the environment. -/
def seuratPrefix : PathBuf := ⟨[.rootDir, .normal "seurat4"]⟩

/-- Its `conda-meta`, with the history and the package of R. -/
def seuratMeta : CondaMeta where
  fingerprint := ⟨3, 0⟩
  entries := (Finmap.singleton "history" (some
    ⟨⟨1, 50⟩, some "+https://conda.example/linux-64::r-base-4.3.3-h123_0\n"⟩)).insert
      "r-base-4.3.3-h123_0.json" (some
        ⟨⟨2, 38⟩, some "\x7b\"version\":\"4.3.3\",\"subdir\":\"linux-64\"\x7d"⟩)

/-- Its fingerprint. -/
def seuratFingerprint : CondaEnvironmentFingerprint where
  condaMeta := ⟨3, 0⟩
  history := some ⟨1, 50⟩
  rBasePackages := [(condaMetaPath seuratPrefix "r-base-4.3.3-h123_0.json", ⟨2, 38⟩)]

/-- The package that is found in it. -/
def seuratInfo : RCondaPackageInfo := ⟨"4.3.3", some .x64⟩

/-- The prefix on disk, and nothing cached yet. -/
def seuratWorld : PackageWorld := ⟨[], fun _ => some seuratMeta, ∅, false⟩

/-- INTERNAL: the fingerprint of the sample environment. -/
theorem seurat_fingerprint :
    (fingerprintFromPrefix seuratPrefix).Yields (seuratWorld.Answers seuratHost seuratPrefix)
      (some seuratFingerprint) := by
  refine yields_ask.mpr ⟨true, rfl, ?_⟩
  refine yields_ask.mpr ⟨some ⟨1, 50⟩, rfl, ?_⟩
  refine yields_ask.mpr ⟨some ["history", "r-base-4.3.3-h123_0.json"], ?_, ?_⟩
  · refine ⟨seuratMeta, rfl, by decide, fun name => ?_⟩
    rw [seuratMeta, Finmap.mem_insert, Finmap.mem_singleton]
    simp [or_comm]
  · refine yields_bind.mpr ⟨seuratFingerprint.rBasePackages, ?_, ?_⟩
    · exact yields_ask.mpr ⟨some ⟨2, 38⟩, rfl, yields_done.mpr rfl⟩
    · exact yields_ask.mpr ⟨some ⟨3, 0⟩, rfl, yields_done.mpr rfl⟩

/-- INTERNAL: the package of the sample environment. -/
theorem seurat_info :
    (rCondaPackageInfoFrom seuratHost.parser).Yields
      (seuratWorld.Answers seuratHost seuratPrefix) (some seuratInfo) := by
  have hline : ((some "+https://conda.example/linux-64::r-base-4.3.3-h123_0\n").bind
      lastRBaseLine).bind (rBaseVersionInHistory seuratHost.parser) =
        some ("4.3.3", "h123_0") := by
    decide
  refine yields_bind.mpr ⟨some (.exact seuratInfo), ?_, yields_done.mpr rfl⟩
  refine yields_ask.mpr
    ⟨some "+https://conda.example/linux-64::r-base-4.3.3-h123_0\n", rfl, ?_⟩
  dsimp only
  rw [hline]
  refine yields_bind.mpr ⟨some seuratInfo, ?_, yields_done.mpr rfl⟩
  exact yields_ask.mpr ⟨some "\x7b\"version\":\"4.3.3\",\"subdir\":\"linux-64\"\x7d", rfl,
    yields_done.mpr rfl⟩

/-- A call that parses the prefix and one that is a hit. -/
theorem packageInfo_sound_seurat :
    PackageEntrySound seuratHost [seuratWorld.disk] seuratPrefix ⟨seuratFingerprint, seuratInfo⟩ ∧
      ∃ instant, 0 ≤ instant ∧ instant ≤ 0 ∧
        FreshParse seuratHost [seuratWorld.disk] seuratPrefix instant seuratInfo := by
  have hstart : (packageInfoCache seuratHost).Reachable ⟨seuratWorld, []⟩ :=
    .init ⟨⟨rfl, rfl, rfl⟩, rfl⟩
  have hrecord := reachable_record hstart rfl seurat_fingerprint rfl seurat_info
  have hhit : (packageInfoCache seuratHost).Reachable
      ⟨_, [.returned seuratPrefix (some seuratInfo), .hit seuratPrefix 0 0 seuratInfo]⟩ :=
    reachable_hit hrecord rfl seurat_fingerprint rfl
  obtain ⟨hentries, hhits⟩ := packageInfo_sound hhit
  exact ⟨hentries _ _ (Finmap.lookup_insert _),
    hhits _ _ _ _ (List.mem_cons_of_mem _ List.mem_cons_self)⟩

end REnvTools.Analysis
