import REnvTools.Program.Metadata

/-!
# The home in a launcher's script

`launcher_home` reads a shell script without running it. `HomeLine` spells an assignment of the
three kinds that it understands; what it reads there is the value that the shell gives to the
variable. `scriptHome_eq_literal_iff` says when it takes a home from a script at all.
-/

set_option autoImplicit false

namespace REnvTools.Analysis

open Program Lib Lib.ShellWords

/-! ## Text -/

/-- What is left of a text whose beginning is taken off. -/
theorem stripPrefix_eq_some {pattern s rest : List Char} :
    stripPrefix pattern s = some rest ↔ s = pattern ++ rest := by
  unfold stripPrefix
  constructor
  · intro h
    split at h
    · rename_i hfront
      obtain ⟨tail, rfl⟩ := List.isPrefixOf_iff_prefix.mp hfront
      rw [List.drop_left] at h
      rw [Option.some.inj h]
    · cases h
  · rintro rfl
    rw [if_pos (List.isPrefixOf_iff_prefix.mpr (List.prefix_append _ _)), List.drop_left]

/-- INTERNAL: an end that was added is taken off. -/
theorem stripSuffix_append (s pattern : List Char) :
    stripSuffix pattern (s ++ pattern) = some s := by
  unfold stripSuffix
  rw [if_pos (List.isSuffixOf_iff_suffix.mpr (List.suffix_append _ _)), List.length_append,
    Nat.add_sub_cancel, List.take_left]

/-- INTERNAL: a property of the characters of a text, tested one by one. -/
theorem forall_of_all {P : Char → Prop} [DecidablePred P] {s : List Char}
    (h : s.all (fun c => decide (P c)) = true) : ∀ c ∈ s, P c :=
  fun c hc => of_decide_eq_true (List.all_eq_true.mp h c hc)

/-- A text that neither begins nor ends with white space is trimmed. -/
theorem trim_eq_self {s : List Char} (hfirst : ∀ c ∈ s.head?, isWhitespace c = false)
    (hlast : ∀ c ∈ s.getLast?, isWhitespace c = false) : trim s = s := by
  have hstart : trimStart s = s := by
    cases s with
    | nil => rfl
    | cons c s => exact List.dropWhile_cons_of_neg (by simp [hfirst c rfl])
  unfold trim
  rw [hstart]
  refine List.rdropWhile_eq_self_iff.mpr fun hne => ?_
  rw [hlast _ (List.getLast?_eq_getLast_of_ne_nil hne)]
  exact Bool.false_ne_true

/-- A text that is trimmed does not end with white space. -/
theorem last_of_trim_eq {s : List Char} (h : trim s = s) :
    ∀ c ∈ s.getLast?, isWhitespace c = false := by
  intro c hc
  by_contra hwhite
  have hsplit := List.dropLast_append_getLast? c hc
  have hshort : (trim s.dropLast).length ≤ s.dropLast.length :=
    ((List.rdropWhile_prefix _ _).length_le).trans (List.dropWhile_suffix _).length_le
  have htrim : trim s.dropLast = s := by
    conv_rhs => rw [← h, ← hsplit, ← List.nil_append (s.dropLast ++ [c]), ← List.append_assoc]
    rw [trim_append_append (List.forall_mem_nil _)
      (List.forall_mem_singleton.mpr (Bool.eq_true_of_not_eq_false hwhite))]
  have hlength := congrArg List.length hsplit
  rw [List.length_append, List.length_singleton] at hlength
  rw [htrim] at hshort
  omega

/-! ## Spellings of a home -/

/-- How a value may be written. -/
inductive Spelling
  | bare
  | double
  | single

/-- The value as it is written. -/
def Spelling.write : Spelling → List Char → List Char
  | bare, value => value
  | double, value => '"' :: (value ++ ['"'])
  | single, value => '\'' :: (value ++ ['\''])

/-- The characters that stand for themselves, and that neither the shell nor the program takes
for the beginning of an expansion. -/
def Spelling.Plain : Spelling → Char → Prop
  | bare, c => c.val < 128 ∧ c ∉ specialChars ∧ isWhitespace c = false
  | double, c => c ≠ '"' ∧ c ≠ '\\' ∧ c ≠ '$' ∧ c ≠ backquote ∧ c ≠ '!'
  | single, c => c ≠ '\'' ∧ c ≠ '$' ∧ c ≠ backquote

/-- A line that assigns a home. -/
structure HomeLine where
  indent : List Char
  spelling : Spelling
  home : List Char
  trail : List Char
  blank : ∀ c ∈ indent ++ trail, c ∈ blankChars
  plain : ∀ c ∈ home, spelling.Plain c

namespace HomeLine

variable (line : HomeLine)

/-- The assignment. -/
def assignment : List Char := "R_HOME_DIR=".toList ++ line.spelling.write line.home

/-- The line. -/
def text : List Char := line.indent ++ line.assignment ++ line.trail

/-- INTERNAL: blanks are white space. -/
theorem isWhitespace_of_blank {c : Char} (h : c ∈ blankChars) : isWhitespace c = true := by
  simp only [blankChars, List.mem_cons, List.not_mem_nil, or_false] at h
  obtain rfl | rfl := h <;> decide

/-- INTERNAL: the value ends in a quote or in a plain character. -/
theorem last_write : ∀ c ∈ (line.spelling.write line.home).getLast?, isWhitespace c = false := by
  intro c hc
  have hplain := line.plain
  cases hspelling : line.spelling with
  | bare =>
    rw [hspelling] at hc hplain
    exact (hplain c (List.mem_of_getLast? hc)).2.2
  | double =>
    rw [hspelling] at hc
    simp only [Spelling.write, ← List.cons_append, List.getLast?_concat, Option.mem_def,
      Option.some.injEq] at hc
    rw [← hc]
    decide
  | single =>
    rw [hspelling] at hc
    simp only [Spelling.write, ← List.cons_append, List.getLast?_concat, Option.mem_def,
      Option.some.injEq] at hc
    rw [← hc]
    decide

/-- INTERNAL: the written value begins with no white space. -/
theorem first_write : ∀ c ∈ (line.spelling.write line.home).head?, isWhitespace c = false := by
  intro c hc
  have hplain := line.plain
  cases hspelling : line.spelling with
  | bare =>
    rw [hspelling] at hc hplain
    exact (hplain c (List.mem_of_mem_head? hc)).2.2
  | double | single =>
    rw [hspelling] at hc
    cases hc
    decide

/-- INTERNAL: the written value has no white space around it. -/
theorem trim_write : trim (line.spelling.write line.home) = line.spelling.write line.home :=
  trim_eq_self line.first_write line.last_write

/-- INTERNAL: the line is trimmed to the assignment. -/
theorem trim_text : trim line.text = line.assignment := by
  have hblank : ∀ c ∈ line.indent ++ line.trail, isWhitespace c = true := fun c hc =>
    isWhitespace_of_blank (line.blank c hc)
  obtain ⟨hindent, htrail⟩ := List.forall_mem_append.mp hblank
  rw [text, trim_append_append hindent htrail]
  refine trim_eq_self (fun c hc => ?_) fun c hc => ?_
  · cases hc
    decide
  · unfold assignment at hc
    rw [List.getLast?_append] at hc
    cases hlast : (line.spelling.write line.home).getLast? with
    | none =>
      rw [hlast] at hc
      cases hc
      decide
    | some last =>
      rw [hlast] at hc
      cases hc
      exact line.last_write c hlast

/-- INTERNAL: the value is what follows the name of the variable. -/
theorem stripPrefix_text : stripPrefix "R_HOME_DIR=".toList (trim line.text) =
    some (line.spelling.write line.home) := by
  rw [line.trim_text]
  exact stripPrefix_eq_some.mpr rfl

/-- INTERNAL: the quotes are taken off. -/
theorem unquote_write : unquote (trim (line.spelling.write line.home)) = line.home := by
  rw [line.trim_write]
  have hplain := line.plain
  unfold unquote
  cases hspelling : line.spelling with
  | bare =>
    rw [hspelling] at hplain
    have hnone : ∀ quote, quote ∈ specialChars → stripPrefix [quote] line.home = none := by
      intro quote hspecial
      rw [Option.eq_none_iff_forall_ne_some]
      intro rest hrest
      have hhome := stripPrefix_eq_some.mp hrest
      exact (hplain quote (by rw [hhome]; exact List.mem_cons_self)).2.1 hspecial
    rw [Spelling.write, hnone '"' (by decide), hnone '\'' (by decide)]
    rfl
  | double =>
    have hfront : stripPrefix ['"'] ('"' :: (line.home ++ ['"'])) = some (line.home ++ ['"']) :=
      stripPrefix_eq_some.mpr rfl
    rw [Spelling.write, hfront, Option.bind_some, stripSuffix_append]
    rfl
  | single =>
    have hfront : stripPrefix ['\''] ('\'' :: (line.home ++ ['\''])) =
        some (line.home ++ ['\'']) := stripPrefix_eq_some.mpr rfl
    have hother : stripPrefix ['"'] ('\'' :: (line.home ++ ['\''])) = none := by
      unfold stripPrefix
      rw [if_neg (by simp)]
    rw [Spelling.write, hother, hfront, Option.bind_none, Option.bind_some, stripSuffix_append]
    rfl

/-- INTERNAL: the home has no expansions. -/
theorem not_mem_home : '$' ∉ line.home ∧ backquote ∉ line.home := by
  have hplain := line.plain
  constructor
  · intro hmem
    have hc := hplain '$' hmem
    cases hspelling : line.spelling with
    | bare =>
      rw [hspelling] at hc
      exact hc.2.1 (by decide)
    | double =>
      rw [hspelling] at hc
      exact hc.2.2.1 rfl
    | single =>
      rw [hspelling] at hc
      exact hc.2.1 rfl
  · intro hmem
    have hc := hplain backquote hmem
    cases hspelling : line.spelling with
    | bare =>
      rw [hspelling] at hc
      exact hc.2.1 (by decide)
    | double =>
      rw [hspelling] at hc
      exact hc.2.2.2.1 rfl
    | single =>
      rw [hspelling] at hc
      exact hc.2.2 rfl

/-- How the shell quotes the characters of the home. -/
def quoting : Quoting :=
  match line.spelling with
  | .bare => .bare
  | .double => .double
  | .single => .single

/-- INTERNAL: the shell reads what is written as the home. -/
theorem reads_write :
    Reads .bare (line.spelling.write line.home) (line.home.map (⟨·, line.quoting⟩)) := by
  have hplain := line.plain
  have hreads : ∀ {mode : Mode} {quoting : Quoting},
      (∀ c ∈ line.home, Reads mode [c] [⟨c, quoting⟩]) →
        Reads mode line.home (line.home.map (⟨·, quoting⟩)) := by
    intro mode quoting h
    have hread := Reads.flatMap (fun c => [c]) (⟨·, quoting⟩) line.home h
    rwa [List.flatMap_singleton'] at hread
  unfold quoting
  cases hspelling : line.spelling with
  | bare =>
    rw [hspelling] at hplain
    exact hreads fun c hc => Reads.bare (hplain c hc).2.1
  | double =>
    rw [hspelling] at hplain
    exact (hreads fun c hc => Reads.double (hplain c hc).1 (hplain c hc).2.1).doubleQuoted
  | single =>
    rw [hspelling] at hplain
    exact (hreads fun c hc => Reads.single (hplain c hc).1).quoted

/-- INTERNAL: no character of the home means anything else to the shell. -/
theorem inert_home : ∀ c ∈ line.home, QuotedChar.Inert ⟨c, line.quoting⟩ := by
  intro c hc
  have hplain := line.plain c hc
  unfold quoting
  cases hspelling : line.spelling with
  | bare =>
    rw [hspelling] at hplain
    exact ⟨hplain.1, hplain.2.1⟩
  | double =>
    rw [hspelling] at hplain
    exact ⟨hplain.2.2.1, hplain.2.2.2.1, hplain.2.1, hplain.2.2.2.2⟩
  | single => trivial

/-- **The shell reads the line as one word**, which assigns the home. -/
theorem tokenize_text : ∃ word, tokenize (String.ofList line.text) = some [.word word] ∧
    wordText word = String.ofList ("R_HOME_DIR=".toList ++ line.home) ∧ ∀ c ∈ word, c.Inert := by
  obtain ⟨hindent, htrail⟩ := List.forall_mem_append.mp line.blank
  have hname : Opens "R_HOME_DIR=".toList ("R_HOME_DIR=".toList.map (⟨·, .bare⟩)) :=
    Opens.bare (forall_of_all (by decide))
  refine ⟨_, tokenize_word hindent htrail (hname.append line.reads_write), ?_, ?_⟩
  · unfold wordText
    rw [List.map_append, List.map_map, List.map_map]
    simp [Function.comp_def]
  · intro c hc
    obtain hc | hc := List.mem_append.mp hc
    · obtain ⟨c', hc', rfl⟩ := List.mem_map.mp hc
      have hall : ∀ c ∈ "R_HOME_DIR=".toList, QuotedChar.Inert ⟨c, .bare⟩ :=
        forall_of_all (by decide)
      exact hall c' hc'
    · obtain ⟨c', hc', rfl⟩ := List.mem_map.mp hc
      exact line.inert_home c' hc'

end HomeLine

/-! ## Scripts -/

variable {host : RuntimeHost} {script : String}

/-- **When a script gives a home**: it is that of a launcher, it assigns the variable, elsewhere
than on macOS once only, and the first value is an absolute path without an expansion. -/
theorem scriptHome_eq_literal_iff {home : PathBuf} :
    scriptHome host script = .literal home ↔
      textContains script "Shell wrapper for R executable" = true ∧
      ∃ value others, assignments script = value :: others ∧
        (host.macos = true ∨ others = []) ∧
        '$' ∉ unquote (trim value) ∧ backquote ∉ unquote (trim value) ∧
        home = host.pathFrom (String.ofList (unquote (trim value))) ∧
        home.isAbsolute host.os.windows = true := by
  unfold scriptHome
  cases hmarker : textContains script "Shell wrapper for R executable" with
  | false => simp
  | true =>
    cases hassign : assignments script with
    | nil => simp
    | cons value others =>
      simp only [Bool.not_true, Bool.false_eq_true, if_false, true_and]
      constructor
      · intro h
        split at h
        · cases h
        · rename_i honce
          split at h
          · cases h
          · rename_i hplain
            split at h
            · rename_i habsolute
              cases h
              simp only [Bool.or_eq_true, List.contains_iff_mem, not_or] at hplain
              refine ⟨value, others, rfl, ?_, hplain.1, hplain.2, rfl, habsolute⟩
              cases hmacos : host.macos with
              | true => exact .inl rfl
              | false =>
                rw [hmacos] at honce
                exact .inr (by simpa using honce)
            · cases h
      · rintro ⟨value', others', heq, honce, hdollar, hback, rfl, habsolute⟩
        cases heq
        have hnot : ¬(!host.macos && !others.isEmpty) = true := by
          obtain hmacos | rfl := honce
          · simp [hmacos]
          · simp
        have hplain : ¬((unquote (trim value)).contains '$' ||
            (unquote (trim value)).contains backquote) = true := by
          simp only [Bool.or_eq_true, List.contains_iff_mem, not_or]
          exact ⟨hdollar, hback⟩
        rw [if_neg hnot, if_neg hplain, if_pos habsolute]

/-- INTERNAL: the assignments of a script, from its lines. -/
theorem assignments_of_lines {before after : List (List Char)} {line : List Char}
    {value : List Char} (hlines : lines script.toList = before ++ line :: after)
    (hline : stripPrefix "R_HOME_DIR=".toList (trim line) = some value)
    (hbefore : ∀ l ∈ before, stripPrefix "R_HOME_DIR=".toList (trim l) = none) :
    assignments script = value ::
      after.filterMap fun l => stripPrefix "R_HOME_DIR=".toList (trim l) := by
  unfold assignments
  rw [hlines, List.filterMap_append, List.filterMap_eq_nil_iff.mpr hbefore, List.nil_append,
    List.filterMap_cons]
  simp only [hline]

/-- **The home of a launcher** is the one that the shell assigns, for every spelling of the
assignment: the program reads from the file, without a process, what the shell reads from the
line. -/
theorem launcher_home (line : HomeLine) {before after : List (List Char)}
    {executable path : PathBuf} {name : String} (hunix : host.os.windows = false)
    (hcanonical : host.os.canonicalize executable = some path) (hname : path.fileName = some name)
    (hvar : isRscript name = true → (host.var "RHOME").filter (· ≠ "") = none)
    (hread : host.read (if isRscript name && host.isFile (path.setFileName "R") then
      path.setFileName "R" else path) = some (0x23 :: 0x21 :: utf8Bytes script))
    (hmarker : textContains script "Shell wrapper for R executable" = true)
    (hlines : lines script.toList = before ++ line.text :: after)
    (hbefore : ∀ l ∈ before, stripPrefix "R_HOME_DIR=".toList (trim l) = none)
    (hafter : host.macos = true ∨ ∀ l ∈ after, stripPrefix "R_HOME_DIR=".toList (trim l) = none)
    (habsolute : (host.pathFrom (String.ofList line.home)).isAbsolute false = true) :
    launcherHome host executable =
        some (.literal (host.pathFrom (String.ofList line.home))) ∧
      ∃ word, tokenize (String.ofList line.text) = some [.word word] ∧
        wordText word = String.ofList ("R_HOME_DIR=".toList ++ line.home) ∧
        ∀ c ∈ word, c.Inert := by
  refine ⟨?_, line.tokenize_text⟩
  have hassign := assignments_of_lines hlines line.stripPrefix_text hbefore
  have hscript : scriptHome host script =
      .literal (host.pathFrom (String.ofList line.home)) := by
    refine scriptHome_eq_literal_iff.mpr ⟨hmarker, _, _, hassign, ?_, ?_⟩
    · exact hafter.imp_right List.filterMap_eq_nil_iff.mpr
    · rw [line.unquote_write, hunix]
      exact ⟨line.not_mem_home.1, line.not_mem_home.2, rfl, habsolute⟩
  have hhome : (if isRscript name then (host.var "RHOME").filter (· ≠ "") else none) = none := by
    split
    · exact hvar ‹_›
    · rfl
  unfold launcherHome
  simp only [hunix, Bool.false_eq_true, if_false, hcanonical, hname, hhome, hread,
    utf8Text_utf8Bytes, Option.map_some, hscript]

/-! ## A launcher -/

/-- The launcher. -/
def shellLauncher : PathBuf := rootedPath ["usr", "bin", "R"]

/-- Its script, after the first two characters. -/
def wrapperScript : String :=
  "/bin/sh\n# Shell wrapper for R executable.\n  R_HOME_DIR=\"/usr/lib/R\"\nexport R_HOME\n"

/-- The line of the script that counts. -/
def wrapperLine : HomeLine where
  indent := [' ', ' ']
  spelling := .double
  home := "/usr/lib/R".toList
  trail := []
  blank := forall_of_all (by decide)
  plain := by
    show ∀ c ∈ "/usr/lib/R".toList, c ≠ '"' ∧ c ≠ '\\' ∧ c ≠ '$' ∧ c ≠ backquote ∧ c ≠ '!'
    exact forall_of_all (by decide)

/-- A machine with the launcher. -/
def wrapperHost : RuntimeHost where
  os := ⟨false, id, some⟩
  macos := false
  pathFrom := unixPath
  var _ := none
  isFile _ := false
  read path :=
    if path = shellLauncher then some (0x23 :: 0x21 :: utf8Bytes wrapperScript) else none
  run _ _ := none

/-- The theorem for a wrapper script. -/
theorem launcher_home_wrapper :
    launcherHome wrapperHost shellLauncher =
      some (.literal (rootedPath ["usr", "lib", "R"])) := by
  have hpath : unixPath "/usr/lib/R" = rootedPath ["usr", "lib", "R"] := by decide
  rw [← hpath]
  exact (@launcher_home wrapperHost wrapperScript wrapperLine
    ["/bin/sh".toList, "# Shell wrapper for R executable.".toList] ["export R_HOME".toList]
    shellLauncher shellLauncher "R" rfl rfl rfl (fun _ => rfl) (by decide) (by decide) (by decide)
    (by decide) (.inr (by decide)) (by decide)).1

end REnvTools.Analysis
