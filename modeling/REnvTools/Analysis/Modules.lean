import REnvTools.Analysis.LauncherHome
import REnvTools.Analysis.ProbeOutput
import REnvTools.Analysis.StartupScripts

/-!
# The modules that are listed

What the listing of `module -t avail R` is read as, and what `find` of the locator of environment
modules reports for it. A name is taken for a module of R by its components: one of them is `r`
and the next begins with a digit, or the last one begins with `r-` and a digit.
-/

set_option autoImplicit false

namespace REnvTools.Analysis

open Lib Lib.ShellScripts Program

/-! ## Names -/

/-- A component of a path begins after this text. -/
def EndsComponent (before : List Char) : Prop := before = [] ∨ ∃ rest, before = rest ++ ['/']

/-- The letter R. -/
def IsLetterR (c : Char) : Prop := c = 'r' ∨ c = 'R'

/-- The name of a module of R. -/
def NamesR (name : List Char) : Prop :=
  (∃ before r digit after, name = before ++ r :: '/' :: digit :: after ∧ EndsComponent before ∧
    IsLetterR r ∧ digit.isDigit = true) ∨
  ∃ before r digit after, name = before ++ r :: '-' :: digit :: after ∧ EndsComponent before ∧
    IsLetterR r ∧ digit.isDigit = true ∧ '/' ∉ after

/-- INTERNAL: the lower case of a character, by its number. -/
theorem toNat_toLower (c : Char) :
    c.toLower.toNat = if 65 ≤ c.toNat ∧ c.toNat ≤ 90 then c.toNat + 32 else c.toNat := by
  have hbounds : (c.val ≥ 'A'.val ∧ c.val ≤ 'Z'.val) ↔ 65 ≤ c.toNat ∧ c.toNat ≤ 90 := by
    simp only [ge_iff_le, UInt32.le_iff_toNat_le]
    rfl
  unfold Char.toLower
  by_cases h : c.val ≥ 'A'.val ∧ c.val ≤ 'Z'.val
  · rw [dif_pos h, if_pos (hbounds.mp h)]
    have hle : c.val.toNat ≤ 90 := (hbounds.mp h).2
    have hstep : (32 : UInt32).toNat = 32 := rfl
    show (c.val + 32).toNat = c.val.toNat + 32
    rw [UInt32.toNat_add]
    omega
  · rw [dif_neg h, if_neg (mt hbounds.mpr h)]

/-- INTERNAL: the letter, in lower case. -/
theorem toLower_eq_r {c : Char} : c.toLower = 'r' ↔ IsLetterR c := by
  have hlower : 'r'.toNat = 114 := rfl
  have hupper : 'R'.toNat = 82 := rfl
  simp only [IsLetterR, ← Char.toNat_inj, toNat_toLower]
  split <;> omega

/-- INTERNAL: the hyphen has no lower case. -/
theorem toLower_eq_hyphen {c : Char} : c.toLower = '-' ↔ c = '-' := by
  have hhyphen : '-'.toNat = 45 := rfl
  simp only [← Char.toNat_inj, toNat_toLower]
  split <;> omega

/-- INTERNAL: neither have the digits. -/
theorem isDigit_toLower (c : Char) : c.toLower.isDigit = c.isDigit := by
  have hdigit : ∀ c : Char, c.isDigit = true ↔ 48 ≤ c.toNat ∧ c.toNat ≤ 57 := by
    intro c
    simp only [Char.isDigit, Bool.and_eq_true, decide_eq_true_eq, ge_iff_le,
      UInt32.le_iff_toNat_le]
    rfl
  rw [Bool.eq_iff_iff, hdigit, hdigit, toNat_toLower]
  split <;> omega

/-- INTERNAL: two elements that follow each other. -/
theorem any_zip_tail_iff {α : Type} {p : α × α → Bool} {l : List α} :
    (l.zip l.tail).any p = true ↔
      ∃ first a b last, l = first ++ a :: b :: last ∧ p (a, b) = true := by
  induction l with
  | nil => simp
  | cons a l ih =>
    cases l with
    | nil =>
      refine iff_of_false (by simp) ?_
      rintro ⟨first, b, c, last, hl, -⟩
      have hlength := congrArg List.length hl
      simp at hlength
      omega
    | cons b l =>
      have hzip : ((a :: b :: l).zip (a :: b :: l).tail).any p =
          (p (a, b) || ((b :: l).zip (b :: l).tail).any p) := rfl
      rw [hzip, Bool.or_eq_true, ih]
      constructor
      · rintro (h | ⟨first, c, d, last, hl, h⟩)
        · exact ⟨[], a, b, l, rfl, h⟩
        · exact ⟨a :: first, c, d, last, by rw [hl]; rfl, h⟩
      · rintro ⟨first, c, d, last, hl, h⟩
        cases first with
        | nil =>
          cases hl
          exact .inl h
        | cons e first =>
          exact .inr ⟨first, c, d, last, (List.cons_eq_cons.mp hl).2, h⟩

/-- INTERNAL: the text before some of the components. -/
theorem exists_intercalate_append (first rest : List (List Char)) (hne : rest ≠ []) :
    ∃ before, EndsComponent before ∧
      ['/'].intercalate (first ++ rest) = before ++ ['/'].intercalate rest := by
  induction first with
  | nil => exact ⟨[], .inl rfl, rfl⟩
  | cons component first ih =>
    obtain ⟨before, hbefore, htext⟩ := ih
    refine ⟨component ++ ['/'] ++ before, .inr ?_, ?_⟩
    · obtain rfl | ⟨rest, rfl⟩ := hbefore
      · exact ⟨component, List.append_nil _⟩
      · exact ⟨component ++ ['/'] ++ rest, (List.append_assoc ..).symm⟩
    · rw [List.cons_append, List.intercalate_cons_of_ne_nil (by simp [hne]), htext,
        List.append_assoc, List.append_assoc, List.append_assoc]

/-- INTERNAL: a component contains no separator. -/
theorem not_mem_of_mem_splitOn {name component : List Char} (h : component ∈ name.splitOn '/') :
    '/' ∉ component := by
  induction name generalizing component with
  | nil =>
    rw [List.splitOn_nil, List.mem_singleton] at h
    simp [h]
  | cons c name ih =>
    rw [List.splitOn_cons_eq_if_modifyHead] at h
    split at h
    · obtain rfl | h := List.mem_cons.mp h
      · exact List.not_mem_nil
      · exact ih h
    · rename_i hc
      cases hparts : name.splitOn '/' with
      | nil => exact absurd hparts (List.splitOn_ne_nil _ _)
      | cons head rest =>
        rw [hparts, List.modifyHead_cons] at h
        obtain rfl | h := List.mem_cons.mp h
        · have hhead := ih (hparts ▸ List.mem_cons_self)
          simpa [hhead] using fun heq : '/' = c => hc (beq_iff_eq.mpr heq.symm)
        · exact ih (hparts ▸ List.mem_cons_of_mem _ h)

/-- INTERNAL: the components after a text that ends one. -/
theorem exists_splitOn_append {before : List Char} (h : EndsComponent before)
    (rest : List Char) : ∃ first, (before ++ rest).splitOn '/' = first ++ rest.splitOn '/' := by
  obtain rfl | ⟨before, rfl⟩ := h
  · exact ⟨[], rfl⟩
  · exact ⟨before.splitOn '/', by
      rw [List.append_assoc, List.singleton_append, List.splitOn_append_cons_self]⟩

/-- INTERNAL: a component that is the letter. -/
theorem eq_letter_iff {component : List Char} :
    toAsciiLowercase (String.ofList component) = "r" ↔ ∃ r, component = [r] ∧ IsLetterR r := by
  have htext : toAsciiLowercase (String.ofList component) = "r" ↔
      component.map Char.toLower = ['r'] := by
    rw [toAsciiLowercase, String.toList_ofList, ← String.toList_inj, String.toList_ofList]
    rfl
  rw [htext, List.map_eq_singleton_iff]
  exact exists_congr fun r => and_congr_right fun _ => toLower_eq_r

/-- INTERNAL: a text that begins with a digit. -/
theorem startsWithDigit_iff {text : List Char} :
    startsWithDigit text = true ↔ ∃ digit after, text = digit :: after ∧ digit.isDigit = true := by
  cases text with
  | nil => simp [startsWithDigit]
  | cons c text => simp [startsWithDigit]

/-- INTERNAL: what a component begins with that is `r-` and a digit, in any case. -/
theorem isHyphenated_iff {component : List Char} :
    isHyphenated component = true ↔
      ∃ r digit after, component = r :: '-' :: digit :: after ∧ IsLetterR r ∧
        digit.isDigit = true := by
  rw [isHyphenated, toAsciiLowercase, String.toList_ofList, String.toList_ofList]
  constructor
  · intro h
    split at h
    · rename_i version hlower
      obtain ⟨digit, after, rfl, hdigit⟩ := startsWithDigit_iff.mp h
      obtain ⟨r, rest, rfl, hr, hrest⟩ := List.map_eq_cons_iff.mp hlower
      obtain ⟨hyphen, rest, rfl, hhyphen, hrest⟩ := List.map_eq_cons_iff.mp hrest
      obtain ⟨c, after, rfl, rfl, -⟩ := List.map_eq_cons_iff.mp hrest
      obtain rfl := toLower_eq_hyphen.mp hhyphen
      exact ⟨r, c, after, rfl, toLower_eq_r.mp hr, by rwa [isDigit_toLower] at hdigit⟩
    · cases h
  · rintro ⟨r, digit, after, rfl, hr, hdigit⟩
    simp only [List.map_cons, toLower_eq_r.mpr hr, toLower_eq_hyphen.mpr rfl]
    rw [startsWithDigit, isDigit_toLower, hdigit]

/-- INTERNAL: a component that is the letter, before one that begins with a digit. -/
theorem letter_component_iff (name : List Char) :
    (∃ first a b last, name.splitOn '/' = first ++ a :: b :: last ∧
      (decide (toAsciiLowercase (String.ofList a) = "r") && startsWithDigit b) = true) ↔
    ∃ before r digit after, name = before ++ r :: '/' :: digit :: after ∧
      EndsComponent before ∧ IsLetterR r ∧ digit.isDigit = true := by
  constructor
  · rintro ⟨first, a, b, last, hparts, h⟩
    rw [Bool.and_eq_true, decide_eq_true_eq, eq_letter_iff, startsWithDigit_iff] at h
    obtain ⟨⟨r, rfl, hr⟩, digit, after, rfl, hdigit⟩ := h
    obtain ⟨before, hbefore, htext⟩ :=
      exists_intercalate_append first ([r] :: (digit :: after) :: last) (by simp)
    have hname : ['/'].intercalate (name.splitOn '/') = name := List.intercalate_splitOn '/'
    rw [hparts, htext, List.intercalate_cons_cons] at hname
    obtain ⟨rest, hrest⟩ : ∃ rest, ['/'].intercalate ((digit :: after) :: last) =
        digit :: rest := by
      cases last with
      | nil => exact ⟨after, List.intercalate_singleton⟩
      | cons component last => exact ⟨_, List.intercalate_cons_cons⟩
    rw [hrest] at hname
    exact ⟨before, r, digit, rest, by rw [← hname]; simp, hbefore, hr, hdigit⟩
  · rintro ⟨before, r, digit, after, rfl, hbefore, hr, hdigit⟩
    obtain ⟨first, hfirst⟩ := exists_splitOn_append hbefore (r :: '/' :: digit :: after)
    have hne : ∀ c : Char, c = '/' → c.isDigit = false ∧ ¬IsLetterR c := by
      rintro c rfl
      exact ⟨by decide, by unfold IsLetterR; decide⟩
    have hletter : (r :: '/' :: digit :: after).splitOn '/' =
        [r] :: (digit :: after).splitOn '/' := by
      have hr' : '/' ∉ [r] := by
        simpa using fun heq : '/' = r => (hne r heq.symm).2 hr
      have happend := List.splitOn_append_cons_self (a := '/') [r] (digit :: after)
      rwa [List.splitOn_eq_singleton hr'] at happend
    obtain ⟨component, last, hlast⟩ : ∃ component last,
        (digit :: after).splitOn '/' = (digit :: component) :: last := by
      rw [List.splitOn_cons_eq_if_modifyHead, if_neg]
      · cases hparts : after.splitOn '/' with
        | nil => exact absurd hparts (List.splitOn_ne_nil _ _)
        | cons component last => exact ⟨component, last, rfl⟩
      · rw [beq_iff_eq]
        rintro heq
        rw [(hne digit heq).1] at hdigit
        cases hdigit
    refine ⟨first, [r], digit :: component, last, by rw [hfirst, hletter, hlast], ?_⟩
    rw [Bool.and_eq_true, decide_eq_true_eq, eq_letter_iff, startsWithDigit_iff]
    exact ⟨⟨r, rfl, hr⟩, digit, component, rfl, hdigit⟩

/-- **What is taken for a module of R.** -/
theorem isRModuleName_iff (name : List Char) : isRModuleName name = true ↔ NamesR name := by
  unfold isRModuleName NamesR
  rw [Bool.or_eq_true, any_zip_tail_iff]
  refine or_congr (letter_component_iff name) ?_
  cases hlast : (name.splitOn '/').getLast? with
  | none => exact absurd (List.getLast?_eq_none_iff.mp hlast) (List.splitOn_ne_nil _ _)
  | some component =>
    dsimp only
    rw [isHyphenated_iff]
    constructor
    · rintro ⟨r, digit, after, rfl, hr, hdigit⟩
      have hparts := (List.dropLast_append_getLast? _ hlast).symm
      obtain ⟨before, hbefore, htext⟩ := exists_intercalate_append (name.splitOn '/').dropLast
        [r :: '-' :: digit :: after] (by simp)
      have hname : ['/'].intercalate (name.splitOn '/') = name := List.intercalate_splitOn '/'
      rw [hparts, htext, List.intercalate_singleton] at hname
      have hmem := not_mem_of_mem_splitOn (List.mem_of_getLast? hlast)
      simp only [List.mem_cons, not_or] at hmem
      exact ⟨before, r, digit, after, hname.symm, hbefore, hr, hdigit, hmem.2.2.2⟩
    · rintro ⟨before, r, digit, after, rfl, hbefore, hr, hdigit, hafter⟩
      obtain ⟨first, hfirst⟩ := exists_splitOn_append hbefore (r :: '-' :: digit :: after)
      have hmem : '/' ∉ r :: '-' :: digit :: after := by
        simp only [List.mem_cons, not_or]
        refine ⟨?_, by decide, ?_, hafter⟩
        · rintro rfl
          exact absurd hr (by unfold IsLetterR; decide)
        · rintro rfl
          exact absurd hdigit (by decide)
      rw [hfirst, List.splitOn_eq_singleton hmem, List.getLast?_concat] at hlast
      obtain rfl := Option.some.inj hlast
      exact ⟨r, digit, after, rfl, hr, hdigit⟩

/-! ## The listing -/

/-- INTERNAL: a text without the suffix stays as it is. -/
theorem trimEndMatches_of_not {pattern text : List Char} (h : ¬pattern <:+ text) (fuel : ℕ) :
    trimEndMatches pattern fuel text = text := by
  cases fuel with
  | zero => rfl
  | succ fuel =>
    rw [trimEndMatches, if_neg]
    rintro ⟨-, hsuffix⟩
    exact h (List.isSuffixOf_iff_suffix.mp hsuffix)

/-- INTERNAL: the suffix is taken off. -/
theorem trimEndMatches_append {pattern text : List Char} (hne : pattern ≠ [])
    (h : ¬pattern <:+ text) {fuel : ℕ} (hfuel : 0 < fuel) :
    trimEndMatches pattern fuel (text ++ pattern) = text := by
  obtain ⟨fuel, rfl⟩ := Nat.exists_eq_succ_of_ne_zero hfuel.ne'
  have hsuffix : pattern.isSuffixOf (text ++ pattern) = true :=
    List.isSuffixOf_iff_suffix.mpr (List.suffix_append _ _)
  have htake : (text ++ pattern).take ((text ++ pattern).length - pattern.length) = text := by
    rw [List.length_append, Nat.add_sub_cancel, List.take_left]
  rw [trimEndMatches, if_pos ⟨hne, hsuffix⟩, htake]
  exact trimEndMatches_of_not h fuel

/-- White space, and what follows it. -/
def IsTrail (trail : List Char) : Prop :=
  trail = [] ∨ ∃ c rest, trail = c :: rest ∧ isWhitespace c = true

/-- A line of the listing: a name, the mark of a default version, and what may follow. -/
structure ListedModule where
  indent : List Char
  name : List Char
  mark : List Char
  trail : List Char
  indent_space : ∀ c ∈ indent, isWhitespace c = true ∧ c ≠ '\n'
  name_ne : name ≠ []
  name_space : ∀ c ∈ name, isWhitespace c = false
  name_unmarked : ¬"(default)".toList <:+ name ∧ ¬"(D)".toList <:+ name
  mark_mem : mark = [] ∨ mark = "(default)".toList ∨ mark = "(D)".toList
  trail_space : IsTrail trail
  trail_line : '\n' ∉ trail

namespace ListedModule

/-- The line. -/
def line (m : ListedModule) : List Char := m.indent ++ (m.name ++ m.mark) ++ m.trail

/-- INTERNAL: no mark contains white space. -/
theorem mark_space (m : ListedModule) : ∀ c ∈ m.mark, isWhitespace c = false := by
  obtain h | h | h := m.mark_mem <;> rw [h]
  · exact List.forall_mem_nil _
  · exact forall_of_all (by decide)
  · exact forall_of_all (by decide)

/-- INTERNAL: the name is what is left of the word without the mark. -/
theorem unmark (m : ListedModule) :
    (trimEndMatches "(D)".toList
      (trimEndMatches "(default)".toList (m.name ++ m.mark).length (m.name ++ m.mark)).length
      (trimEndMatches "(default)".toList (m.name ++ m.mark).length (m.name ++ m.mark))) =
        m.name := by
  have hlength : 0 < (m.name ++ m.mark).length := by
    rw [List.length_append]
    exact Nat.add_pos_left (List.length_pos_iff.mpr m.name_ne) _
  obtain ⟨hdefault, hd⟩ := m.name_unmarked
  obtain h | h | h := m.mark_mem
  · rw [h, List.append_nil, trimEndMatches_of_not hdefault, trimEndMatches_of_not hd]
  · rw [h] at hlength ⊢
    rw [trimEndMatches_append (by decide) hdefault hlength, trimEndMatches_of_not hd]
  · have hother : ¬"(default)".toList <:+ m.name ++ "(D)".toList := by
      intro hsuffix
      have hends := List.suffix_of_suffix_length_le (List.suffix_append m.name "(D)".toList)
        hsuffix (by decide)
      exact absurd hends (by decide)
    rw [h] at hlength ⊢
    rw [trimEndMatches_of_not hother, trimEndMatches_append (by decide) hd hlength]

/-- The name is read, whatever follows the white space. -/
theorem moduleNameOf_eq (m : ListedModule) {trail : List Char} (htrail : IsTrail trail) :
    moduleNameOf (m.indent ++ (m.name ++ m.mark) ++ trail) = some m.name := by
  have hword : ∀ c ∈ m.name ++ m.mark, isWhitespace c = false := by
    intro c hc
    obtain hc | hc := List.mem_append.mp hc
    · exact m.name_space c hc
    · exact m.mark_space c hc
  have hne : m.name ++ m.mark ≠ [] := by simp [m.name_ne]
  have hfirst : ((m.indent ++ (m.name ++ m.mark) ++ trail).dropWhile
      isWhitespace).takeWhile (!isWhitespace ·) = m.name ++ m.mark := by
    rw [List.append_assoc, List.dropWhile_append_of_pos fun c hc => (m.indent_space c hc).1]
    obtain ⟨c, rest, hcons⟩ := List.exists_cons_of_ne_nil hne
    have hc := hword c (hcons ▸ List.mem_cons_self)
    rw [hcons, List.cons_append, List.dropWhile_cons_of_neg (by simp [hc]), ← List.cons_append,
      ← hcons, List.takeWhile_append_of_pos fun c hc => by simp [hword c hc]]
    obtain rfl | ⟨c, rest, rfl, hspace⟩ := htrail
    · rw [List.takeWhile_nil, List.append_nil]
    · rw [List.takeWhile_cons_of_neg (by simp [hspace]), List.append_nil]
  unfold moduleNameOf
  rw [hfirst]
  split
  · rename_i hnil
    exact absurd hnil hne
  · exact congrArg some m.unmark

/-- INTERNAL: a carriage return at the end of the line is in what follows the name. -/
theorem exists_trail (m : ListedModule) :
    ∃ trail, IsTrail trail ∧ withoutReturn m.line = m.indent ++ (m.name ++ m.mark) ++ trail := by
  unfold withoutReturn line
  split
  · rename_i hlast
    obtain htrail | ⟨c, rest, htrail, hspace⟩ := m.trail_space
    · have hne : m.name ++ m.mark ≠ [] := by simp [m.name_ne]
      rw [htrail, List.append_nil, List.getLast?_append_of_ne_nil _ hne] at hlast
      have hmem := List.mem_of_getLast? hlast
      obtain hmem | hmem := List.mem_append.mp hmem
      · exact absurd (m.name_space _ hmem) (by decide)
      · exact absurd (m.mark_space _ hmem) (by decide)
    · refine ⟨(c :: rest).dropLast, ?_, ?_⟩
      · cases rest with
        | nil => exact .inl rfl
        | cons d rest => exact .inr ⟨c, (d :: rest).dropLast, rfl, hspace⟩
      · rw [htrail, List.dropLast_append_of_ne_nil (List.cons_ne_nil _ _)]
  · exact ⟨m.trail, m.trail_space, rfl⟩

/-- INTERNAL: the line is one. -/
theorem line_feed (m : ListedModule) : '\n' ∉ m.line := by
  unfold line
  simp only [List.mem_append, not_or]
  refine ⟨⟨fun h => (m.indent_space _ h).2 rfl, fun h => ?_, fun h => ?_⟩, m.trail_line⟩
  · exact absurd (m.name_space _ h) (by decide)
  · exact absurd (m.mark_space _ h) (by decide)

end ListedModule

/-- The listing, with a line for each module. -/
def listingText (listed : List ListedModule) : List Char :=
  listed.flatMap fun m => m.line ++ ['\n']

/-- The modules of R in a listing, in its order. -/
theorem parseRModules_listingText (listed : List ListedModule) :
    parseRModules (listingText listed) =
      ((listed.map (·.name)).filter isRModuleName).map String.ofList := by
  induction listed with
  | nil => rfl
  | cons m listed ih =>
    have hcons : listingText (m :: listed) = m.line ++ '\n' :: listingText listed := by
      simp [listingText]
    obtain ⟨trail, htrail, hline⟩ := m.exists_trail
    have hname := m.moduleNameOf_eq htrail
    rw [← hline] at hname
    unfold parseRModules at ih ⊢
    rw [hcons, lines_cons m.line_feed, List.filterMap_cons, ih, hname, Option.bind_some,
      List.map_cons, List.filter_cons]
    split <;> simp_all

/-! ## What is reported -/

section Find

variable {host : ActivationHost} {locator : EnvironmentModule} {modulecmd : PathBuf}

/-- The installation is that of a module, as it was resolved after loading the module. -/
def InstallsModule (host : ActivationHost) (modulecmd : PathBuf) (moduleName : String)
    (installation : RInstallation) : Prop :=
  ∃ command resolved, installation.startupCommand = some command ∧
    installation.locatorMetadata = some (.module moduleName command) ∧
    readScript command = some (scriptOf (loadCommands (host.os.toStringLossy modulecmd)
      moduleName)) ∧
    resolveActivated host none command = some resolved ∧
    installation.version = some resolved.version ∧ installation.arch = some resolved.arch

/-- INTERNAL: the command that loads a module is read as that. -/
theorem readScript_moduleStartup (os : Os) (modulecmd : PathBuf) (moduleName : String) :
    readScript (buildModuleStartupCommand os modulecmd moduleName) =
      some (scriptOf (loadCommands (os.toStringLossy modulecmd) moduleName)) := by
  rw [buildModuleStartupCommand_eq]
  exact readScript_commandsText (isRead_load _ _) (List.cons_ne_nil _ _)

/-- INTERNAL: what is reported for a module that is resolved. -/
theorem mem_reportModule {moduleName : String} {installation : RInstallation} :
    Message.installation installation ∈ reportModule host locator modulecmd moduleName →
      InstallsModule host modulecmd moduleName installation := by
  intro hmem
  unfold reportModule at hmem
  dsimp only at hmem
  split at hmem
  · cases hmem
  · rename_i resolved hresolved
    split at hmem
    · cases hmem
    · rename_i installation' hinstallation
      obtain hmem | hmem := List.mem_append.mp hmem
      · obtain ⟨manager, -, hmanager⟩ := Option.map_eq_some_iff.mp (Option.mem_toList.mp hmem)
        cases hmanager
      · cases List.mem_singleton.mp hmem
        cases hinstallation
        exact ⟨_, resolved, rfl, rfl, readScript_moduleStartup .., hresolved, rfl, rfl⟩

/-- INTERNAL: something is reported for a module that is resolved. -/
theorem exists_mem_reportModule (locator : EnvironmentModule) {moduleName : String}
    {resolved : ResolvedRInstallation}
    (h : resolveActivated host none (buildModuleStartupCommand host.os modulecmd moduleName) =
      some resolved) :
    ∃ installation,
      Message.installation installation ∈ reportModule host locator modulecmd moduleName := by
  unfold reportModule
  dsimp only
  rw [h]
  exact ⟨_, List.mem_append_right _ (List.mem_singleton_self _)⟩

/-- **The modules of R that are listed are found.** The listing is read back, whatever marks and
white space it has; every installation that is reported belongs to a listed module of R and
records the command that loads just this module; and for every listed module of R with which R can
be resolved, one is reported. -/
theorem module_find (hunix : host.os.windows = false)
    (hcommand : locator.modulecmd = some modulecmd) (listed : List ListedModule) :
    (∀ installation,
      Message.installation installation ∈
        moduleFind host locator (fun _ => some (listingText listed)) →
      ∃ m ∈ listed, NamesR m.name ∧
        InstallsModule host modulecmd (String.ofList m.name) installation) ∧
    ∀ m ∈ listed, NamesR m.name →
      (resolveActivated host none
        (buildModuleStartupCommand host.os modulecmd (String.ofList m.name))).isSome →
      ∃ installation,
        Message.installation installation ∈
          moduleFind host locator (fun _ => some (listingText listed)) ∧
        InstallsModule host modulecmd (String.ofList m.name) installation := by
  have hfind : moduleFind host locator (fun _ => some (listingText listed)) =
      (((listed.map (·.name)).filter isRModuleName).map String.ofList).flatMap
        (reportModule host locator modulecmd) := by
    rw [moduleFind, hunix, hcommand, ← parseRModules_listingText]
    rfl
  rw [hfind]
  constructor
  · intro installation hmem
    obtain ⟨moduleName, hname, hmem⟩ := List.mem_flatMap.mp hmem
    obtain ⟨name, hfiltered, rfl⟩ := List.mem_map.mp hname
    obtain ⟨hlisted, hr⟩ := List.mem_filter.mp hfiltered
    obtain ⟨m, hm, rfl⟩ := List.mem_map.mp hlisted
    exact ⟨m, hm, (isRModuleName_iff _).mp hr, mem_reportModule hmem⟩
  · intro m hm hr hresolved
    obtain ⟨resolved, hresolved⟩ := Option.isSome_iff_exists.mp hresolved
    obtain ⟨installation, hmem⟩ := exists_mem_reportModule locator hresolved
    refine ⟨installation, List.mem_flatMap.mpr ⟨_, ?_, hmem⟩, mem_reportModule hmem⟩
    exact List.mem_map_of_mem (List.mem_filter.mpr
      ⟨List.mem_map_of_mem hm, (isRModuleName_iff _).mpr hr⟩)

end Find

/-! ## A listing with a default version -/

/-- A cluster with two modules, of which one loads. -/
def clusterHost : ActivationHost where
  os := unixOs
  macos := false
  pathFrom := unixPath
  var _ := none
  isFile _ := false
  read _ := none
  run _ arguments :=
    if arguments.any fun argument => textContains argument "R/4.3" then
      some "ret-r-launcher\n/opt/R/bin/R\nret-r-installation-info\n4.3.1\n/opt/R\nx86_64\n"
    else none
  isDir _ := false
  findExecutable _ := none
  isSymlink _ := false
  probe _ := none
  getEnvVar _ := none
  userHome := none
  pathExists _ := false
  searchPath := []
  splitPaths _ := []
  readToString _ := none
  inferFromPath _ := .x64

/-- The default version of R. -/
def listedR : ListedModule where
  indent := []
  name := "R/4.3".toList
  mark := "(default)".toList
  trail := []
  indent_space := List.forall_mem_nil _
  name_ne := by decide
  name_space := forall_of_all (by decide)
  name_unmarked := by decide
  mark_mem := .inr (.inl rfl)
  trail_space := .inl rfl
  trail_line := List.not_mem_nil

/-- An older one, which does not load. -/
def listedOldR : ListedModule where
  indent := [' ']
  name := "R/3.6".toList
  mark := []
  trail := []
  indent_space := by simp [isWhitespace]
  name_ne := by decide
  name_space := forall_of_all (by decide)
  name_unmarked := by decide
  mark_mem := .inl rfl
  trail_space := .inl rfl
  trail_line := List.not_mem_nil

/-- INTERNAL: what is in a text is in a longer one. -/
theorem textContains_append {s pattern : String} (h : textContains s pattern = true) (t : String) :
    textContains (s ++ t) pattern = true := by
  unfold textContains at h ⊢
  rw [String.toList_append]
  exact decide_eq_true ((of_decide_eq_true h).trans (List.prefix_append _ _).isInfix)

/-- INTERNAL: what stands between two texts is in the text. -/
theorem textContains_between (s pattern t : String) :
    textContains (s ++ pattern ++ t) pattern = true := by
  unfold textContains
  rw [String.toList_append, String.toList_append]
  exact decide_eq_true (List.infix_append _ _ _)

/-- INTERNAL: the script of the module that loads has its name in it. -/
theorem textContains_startupScript :
    textContains (startupScript clusterHost.toRuntimeHost none
      (buildModuleStartupCommand unixOs (rootedPath ["modulecmd"]) "R/4.3")) "R/4.3" = true := by
  have hquote : quoteShellArgument "R/4.3" = "R/4.3" := by decide
  have hcommand : textContains
      (buildModuleStartupCommand unixOs (rootedPath ["modulecmd"]) "R/4.3") "R/4.3" = true := by
    unfold buildModuleStartupCommand
    rw [hquote]
    exact textContains_between _ _ _
  unfold startupScript
  iterate 8 refine textContains_append ?_ _
  exact hcommand

/-- INTERNAL: what a script prints that loads the module. -/
theorem run_clusterHost (program : PathBuf) {arguments : List String}
    (h : (arguments.any fun argument => textContains argument "R/4.3") = true) :
    clusterHost.run program arguments =
      some "ret-r-launcher\n/opt/R/bin/R\nret-r-installation-info\n4.3.1\n/opt/R\nx86_64\n" :=
  if_pos h

/-- INTERNAL: the module loads. -/
theorem resolveActivated_clusterHost :
    (resolveActivated clusterHost none
      (buildModuleStartupCommand unixOs (rootedPath ["modulecmd"]) "R/4.3")).isSome = true := by
  have hunix : clusterHost.os.windows = false := rfl
  unfold resolveActivated resolveWithStartup
  rw [hunix, if_neg Bool.false_ne_true, run_clusterHost _ (List.any_eq_true.mpr
    ⟨_, List.mem_cons_of_mem _ List.mem_cons_self, textContains_startupScript⟩)]
  decide

/-- The theorem for the module that loads. -/
theorem module_find_default :
    ∃ installation,
      Message.installation installation ∈
        moduleFind clusterHost ⟨some (rootedPath ["modulecmd"]), none⟩
          (fun _ => some (listingText [listedOldR, listedR])) ∧
      InstallsModule clusterHost (rootedPath ["modulecmd"]) (String.ofList listedR.name)
        installation :=
  (@module_find clusterHost ⟨some (rootedPath ["modulecmd"]), none⟩ _ rfl rfl
    [listedOldR, listedR]).2 listedR (List.mem_cons_of_mem _ List.mem_cons_self)
      ((isRModuleName_iff _).mp (by decide)) resolveActivated_clusterHost

end REnvTools.Analysis
