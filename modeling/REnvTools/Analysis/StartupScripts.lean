import REnvTools.Analysis.Quoting
import REnvTools.Lib.ShellScripts
import REnvTools.Program.Conda
import REnvTools.Program.RVersionsLocator

/-!
# Startup commands, read by the shell

The commands that prepare the environment of an installation are put together from names that
come from anywhere: of modules, scripts, libraries, executables. The shell reads each of them as
one word of the command that it is meant for, and nothing else of the script depends on it.
-/

set_option autoImplicit false

namespace REnvTools.Analysis

open Lib Lib.ShellWords Lib.ShellScripts Program

/-! ## Arguments within scripts -/

/-- INTERNAL: the replaced text is read as the reader of words reads it. -/
theorem lifts_replaceChar (argument : String) (word : List QuotedChar) (tokens : List Token) :
    Lifts ⟨.single, some word, tokens⟩ (replaceChar argument '\'' "'\"'\"'").toList := by
  rw [replaceChar, String.toList_ofList]
  apply Lifts.flatMap _ fun c => ⟨c, if c = '\'' then .double else .single⟩
  · intro c _
    by_cases hquote : c = '\''
    · subst hquote
      exact Reads.single_quote
    · rw [if_neg hquote, if_neg hquote]
      exact Reads.single hquote
  · intro c _ word tokens
    by_cases hquote : c = '\''
    · rw [if_pos hquote]
      exact Lifts.of_plain _ (by simp)
    · rw [if_neg hquote]
      exact Lifts.char (fun _ => ⟨by simp, by simp⟩) fun _ => by simp

/-- INTERNAL: so is all that `quote_shell_argument` writes. -/
theorem lifts_quoteShellArgument (argument : String) (word : Option (List QuotedChar))
    (tokens : List Token) :
    Lifts ⟨.bare, word, tokens⟩ (quoteShellArgument argument).toList := by
  unfold quoteShellArgument
  split
  · rename_i hportable
    refine Lifts.of_plain _ fun c hc => ?_
    have hspecial := (inert_of_isPortable hportable.2 hc).2
    exact ⟨fun heq => hspecial (heq ▸ by decide), fun heq => hspecial (heq ▸ by decide)⟩
  · rw [String.toList_append, String.toList_append, List.append_assoc]
    have hquote : "'".toList = ['\''] := rfl
    have hopen : Reader.run ⟨.bare, word, tokens⟩ ['\''] =
        ⟨.single, some (word.getD []), tokens⟩ := by
      simp [Reader.step, Reader.quote]
    rw [hquote]
    refine (Lifts.of_plain _ (by simp)).append ?_
    rw [hopen]
    exact (lifts_replaceChar argument _ tokens).append (Lifts.of_plain _ (by simp))

/-- An argument begins a word. -/
theorem begins_quoteShellArgument (argument : String) :
    Begins (quoteShellArgument argument).toList (argumentWord argument) [] :=
  .of_opens (opens_quoteShellArgument argument) fun tokens =>
    lifts_quoteShellArgument argument none tokens

/-- An argument within a word. -/
theorem adds_quoteShellArgument (argument : String) :
    Adds .bare (quoteShellArgument argument).toList (argumentWord argument) [] := by
  refine .of_reads ?_ fun word tokens => lifts_quoteShellArgument argument (some word) tokens
  unfold quoteShellArgument argumentWord
  split
  · rename_i hportable
    have hreads := Reads.flatMap (fun c => [c]) (⟨·, .bare⟩) argument.toList fun c hc =>
      Reads.bare (inert_of_isPortable hportable.2 hc).2
    simpa using hreads
  · rw [String.toList_append, String.toList_append]
    exact Reads.quoted (reads_replaceChar argument)

/-! ## The other words of the scripts -/

/-- A word that is written as it is. -/
def plainWord (text : String) : Token := .word (text.toList.map (⟨·, .bare⟩))

/-- The value of a variable, between double quotes. -/
def variableWord (name : String) : Token := .word (("$" ++ name).toList.map (⟨·, .double⟩))

/-- The characters of which a word may consist that is written as it is. -/
def IsPlain (c : Char) : Prop :=
  c ∉ operatorChars ++ blankChars ++ ['\\', '\'', '"', '#', '$']

instance (c : Char) : Decidable (IsPlain c) := by
  unfold IsPlain
  infer_instance

/-- INTERNAL: a plain character within a word. -/
theorem adds_plainChar {c : Char} (hc : IsPlain c) : Adds .bare [c] [⟨c, .bare⟩] [] := by
  simp only [IsPlain, operatorChars, blankChars, List.mem_append, List.mem_cons,
    List.not_mem_nil, or_false, not_or] at hc
  refine .of_reads ?_ fun word tokens => Lifts.char (by simp [hc]) (by simp [hc])
  intro word tokens
  simp [Reader.step, Reader.push, operatorChars, blankChars, hc]

/-- INTERNAL: plain text within a word. -/
theorem adds_plain {text : List Char} (h : ∀ c ∈ text, IsPlain c) :
    Adds .bare text (text.map (⟨·, .bare⟩)) [] := by
  induction text with
  | nil => exact fun word tokens before outer => by simp
  | cons c text ih =>
    exact (adds_plainChar (h c List.mem_cons_self)).append
      (ih fun c' hc' => h c' (List.mem_cons_of_mem c hc'))

/-- Plain text is a word. -/
theorem begins_plain (text : String) (hne : text.toList ≠ [])
    (h : text.toList.all (fun c => decide (IsPlain c)) = true) :
    Begins text.toList (text.toList.map (⟨·, .bare⟩)) [] := by
  obtain ⟨c, rest, htext⟩ := List.exists_cons_of_ne_nil hne
  rw [htext] at h ⊢
  have hall : ∀ c' ∈ c :: rest, IsPlain c' :=
    fun c' hc' => of_decide_eq_true (List.all_eq_true.mp h c' hc')
  have hc := hall c List.mem_cons_self
  simp only [IsPlain, operatorChars, blankChars, List.mem_append, List.mem_cons,
    List.not_mem_nil, or_false, not_or] at hc
  have hfirst : Begins [c] [⟨c, .bare⟩] [] := by
    refine .of_opens ?_ fun tokens => Lifts.char (by simp [hc]) (by simp [hc])
    intro tokens
    simp [Reader.step, Reader.push, operatorChars, blankChars, hc]
  exact hfirst.append (adds_plain fun c' hc' => hall c' (List.mem_cons_of_mem c hc'))

/-- INTERNAL: text between double quotes. -/
theorem adds_double {text : List Char}
    (h : ∀ c ∈ text, c ≠ '"' ∧ c ≠ '\\' ∧ c ≠ '$') :
    Adds .double text (text.map (⟨·, .double⟩)) [] := by
  induction text with
  | nil => exact fun word tokens before outer => by simp
  | cons c text ih =>
    obtain ⟨hquote, hescape, hdollar⟩ := h c List.mem_cons_self
    have hfirst : Adds .double [c] [⟨c, .double⟩] [] :=
      .of_reads (Reads.double hquote hescape) fun word tokens =>
        Lifts.char (fun hc => absurd hc hdollar) fun _ => by simp
    exact hfirst.append (ih fun c' hc' => h c' (List.mem_cons_of_mem c hc'))

/-- The value of a variable is a word. -/
theorem begins_variable (c : Char) (rest : List Char)
    (h : ∀ c' ∈ c :: rest, c'.isAlphanum = true ∨ c' = '_') :
    Begins ('"' :: ('$' :: c :: rest ++ ['"'])) (('$' :: c :: rest).map (⟨·, .double⟩)) [] := by
  have hname : ∀ c' ∈ c :: rest, c' ≠ '(' ∧ c' ≠ '"' ∧ c' ≠ '\\' ∧ c' ≠ '$' := by
    intro c' hc'
    have hchar := h c' hc'
    refine ⟨?_, ?_, ?_, ?_⟩ <;>
    · rintro rfl
      exact absurd hchar (by decide)
  obtain ⟨hparen, hquote, hescape, hdollar⟩ := hname c List.mem_cons_self
  have hrest := adds_double fun c' hc' => (hname c' (List.mem_cons_of_mem c hc')).2
  exact .doubleQuoted ((Adds.dollar hparen hdollar hquote hescape).append hrest)

/-! ## Commands -/

/-- The commands that load a module. -/
def loadCommands (modulecmd module : String) : List Command :=
  [{ text := "_ret_module_code=\"$(" ++ quoteShellArgument modulecmd ++ " sh load " ++
        quoteShellArgument module ++ ")\""
     tokens := [.word ("_ret_module_code=".toList.map (⟨·, .bare⟩) ++ [⟨'$', .double⟩])]
     substitutions := [.mk [.word (argumentWord modulecmd), plainWord "sh", plainWord "load",
        .word (argumentWord module)] []] },
    { text := "eval \"$_ret_module_code\""
      tokens := [plainWord "eval", variableWord "_ret_module_code"]
      substitutions := [] }]

/-- The command that runs a script in the shell itself. -/
def sourceCommand (script : String) : Command where
  text := ". " ++ quoteShellArgument script
  tokens := [plainWord ".", .word (argumentWord script)]
  substitutions := []

/-- The command that sets the library. -/
def libraryCommand (library : String) : Command where
  text := "export R_LIBS=" ++ quoteShellArgument library
  tokens := [plainWord "export",
    .word ("R_LIBS=".toList.map (⟨·, .bare⟩) ++ argumentWord library)]
  substitutions := []

/-- The command that does nothing. -/
def noCommand : Command := ⟨":", [plainWord ":"], []⟩

/-- The command that activates a conda environment. -/
def activateCommand (condaPrefix : String) : Command where
  text := "conda activate " ++ quoteShellArgument condaPrefix
  tokens := [plainWord "conda", plainWord "activate", .word (argumentWord condaPrefix)]
  substitutions := []

/-- The command in which the launcher is kept: it is given, or the shell looks it up. -/
def launcherCommand : Option String → Command
  | some executable =>
    { text := "_ret_r_exe=" ++ quoteShellArgument executable
      tokens := [.word ("_ret_r_exe=".toList.map (⟨·, .bare⟩) ++ argumentWord executable)]
      substitutions := [] }
  | none =>
    { text := "_ret_r_exe=$(command -v R)"
      tokens := [.word ("_ret_r_exe=".toList.map (⟨·, .bare⟩) ++ [⟨'$', .bare⟩])]
      substitutions := [.mk [plainWord "command", plainWord "-v", plainWord "R"] []] }

/-- The test that there is a launcher. -/
def testCommand : Command where
  text := "[ -n \"$_ret_r_exe\" ]"
  tokens := [plainWord "[", plainWord "-n", variableWord "_ret_r_exe", plainWord "]"]
  substitutions := []

/-- The command that prints the launcher after its marker. -/
def printCommand : Command where
  text := "printf 'ret-r-launcher\\n%s\\n' \"$_ret_r_exe\""
  tokens := [plainWord "printf", .word ("ret-r-launcher\\n%s\\n".toList.map (⟨·, .single⟩)),
    variableWord "_ret_r_exe"]
  substitutions := []

/-- The command that runs the launcher, with the options of `Rscript` or of `R`. -/
def probeCommand : Command where
  text := "case \"$_ret_r_exe\" in *Rscript|*Rscript.exe) \"$_ret_r_exe\" --vanilla -e " ++
    quoteShellArgument rInfoCmd ++ ";; *) \"$_ret_r_exe\" --vanilla -s -e " ++
    quoteShellArgument rInfoCmd ++ ";; esac"
  tokens := [plainWord "case", variableWord "_ret_r_exe", plainWord "in", plainWord "*Rscript",
    .operator '|', plainWord "*Rscript.exe", .operator ')',
    variableWord "_ret_r_exe", plainWord "--vanilla", plainWord "-e",
    .word (argumentWord rInfoCmd), .operator ';', .operator ';', plainWord "*", .operator ')',
    variableWord "_ret_r_exe", plainWord "--vanilla", plainWord "-s", plainWord "-e",
    .word (argumentWord rInfoCmd), .operator ';', .operator ';', plainWord "esac"]
  substitutions := []

/-- The commands of `resolve_with_startup` after those that prepare the environment. -/
def launcherCommands (executable : Option String) : List Command :=
  [launcherCommand executable, testCommand, printCommand, probeCommand]

/-- What the shell reads of these commands. -/
def scriptOf (commands : List Command) : Script :=
  .mk (andIf.intercalate (commands.map (·.tokens))) (commands.flatMap (·.substitutions))

/-! ## Each command is read -/

/-- INTERNAL: `_ret_r_exe`, between double quotes. -/
theorem begins_launcher :
    Begins "\"$_ret_r_exe\"".toList ("$_ret_r_exe".toList.map (⟨·, .double⟩)) [] := by
  have hword := begins_variable '_' "ret_r_exe".toList (by simp)
  simpa using hword

/-- INTERNAL: a command that consists of words. -/
theorem isRead_of_words {command : Command} {texts : List (List Char)}
    {words : List (List QuotedChar)}
    (h : List.Forall₂ (fun text chars => Begins text chars []) texts words) (hne : texts ≠ [])
    (htext : command.text.toList = [' '].intercalate texts)
    (htokens : command.tokens = words.map .word) (hsubstitutions : command.substitutions = []) :
    command.IsRead := by
  unfold Command.IsRead
  rw [htext, htokens, hsubstitutions]
  exact isScript_words h hne

/-- The module is loaded. -/
theorem isRead_load (modulecmd module : String) :
    ∀ command ∈ loadCommands modulecmd module, command.IsRead := by
  have hinner : ∀ outer, IsScript outer
      ([' '].intercalate [(quoteShellArgument modulecmd).toList, "sh".toList, "load".toList,
        (quoteShellArgument module).toList])
      ([argumentWord modulecmd, "sh".toList.map (⟨·, .bare⟩), "load".toList.map (⟨·, .bare⟩),
        argumentWord module].map .word) [] := by
    intro outer
    refine isScript_words ?_ (List.cons_ne_nil _ _)
    exact .cons (begins_quoteShellArgument _) (.cons (begins_plain "sh" (by decide) (by decide))
      (.cons (begins_plain "load" (by decide) (by decide))
        (.cons (begins_quoteShellArgument _) .nil)))
  have hassign := (begins_plain "_ret_module_code=" (by decide) (by decide)).append
    (Adds.substitution (.inr ⟨rfl, rfl⟩) hinner).doubleQuoted
  have hvariable := begins_variable '_' "ret_module_code".toList (by simp)
  intro command hcommand
  simp only [loadCommands, List.mem_cons, List.not_mem_nil, or_false] at hcommand
  obtain rfl | rfl := hcommand
  · have hscript := IsScript.word [] hassign
    simpa [Command.IsRead, plainWord] using hscript
  · exact isRead_of_words (.cons (begins_plain "eval" (by decide) (by decide))
      (.cons hvariable .nil)) (List.cons_ne_nil _ _) (by simp) (by simp [plainWord, variableWord])
      rfl

/-- The script is run. -/
theorem isRead_source (script : String) : (sourceCommand script).IsRead :=
  isRead_of_words (.cons (begins_plain "." (by decide) (by decide))
    (.cons (begins_quoteShellArgument script) .nil)) (List.cons_ne_nil _ _)
    (by simp [sourceCommand]) rfl rfl

/-- The library is set. -/
theorem isRead_library (library : String) : (libraryCommand library).IsRead := by
  have hvalue := (begins_plain "R_LIBS=" (by decide) (by decide)).append
    (adds_quoteShellArgument library)
  exact isRead_of_words (.cons (begins_plain "export" (by decide) (by decide))
    (.cons hvalue .nil)) (List.cons_ne_nil _ _) (by simp [libraryCommand]) rfl rfl

/-- Nothing is done. -/
theorem isRead_nothing : noCommand.IsRead :=
  isRead_of_words (.cons (begins_plain ":" (by decide) (by decide)) .nil)
    (List.cons_ne_nil _ _) rfl rfl rfl

/-- The environment is activated. -/
theorem isRead_activate (condaPrefix : String) : (activateCommand condaPrefix).IsRead :=
  isRead_of_words (.cons (begins_plain "conda" (by decide) (by decide))
    (.cons (begins_plain "activate" (by decide) (by decide))
      (.cons (begins_quoteShellArgument condaPrefix) .nil))) (List.cons_ne_nil _ _)
    (by simp [activateCommand]) rfl rfl

/-- The launcher is kept. -/
theorem isRead_launcher (executable : Option String) : (launcherCommand executable).IsRead := by
  have hname := begins_plain "_ret_r_exe=" (by decide) (by decide)
  cases executable with
  | none =>
    have hinner : ∀ outer, IsScript outer
        ([' '].intercalate ["command".toList, "-v".toList, "R".toList])
        (["command".toList.map (⟨·, .bare⟩), "-v".toList.map (⟨·, .bare⟩),
          "R".toList.map (⟨·, .bare⟩)].map .word) [] := by
      intro outer
      refine isScript_words ?_ (List.cons_ne_nil _ _)
      exact .cons (begins_plain "command" (by decide) (by decide))
        (.cons (begins_plain "-v" (by decide) (by decide))
          (.cons (begins_plain "R" (by decide) (by decide)) .nil))
    have hscript := IsScript.word [] (hname.append
      (Adds.substitution (.inl ⟨rfl, rfl⟩) hinner))
    simpa [Command.IsRead, launcherCommand, plainWord] using hscript
  | some executable =>
    have hscript := IsScript.word [] (hname.append
      (adds_quoteShellArgument executable))
    simpa [Command.IsRead, launcherCommand] using hscript

/-- The launcher is tested. -/
theorem isRead_test : testCommand.IsRead :=
  isRead_of_words (.cons (begins_plain "[" (by decide) (by decide))
    (.cons (begins_plain "-n" (by decide) (by decide)) (.cons begins_launcher
      (.cons (begins_plain "]" (by decide) (by decide)) .nil)))) (List.cons_ne_nil _ _)
    (by simp [testCommand]) rfl rfl

/-- INTERNAL: a word between single quotes. -/
theorem begins_single (text : List Char) (h : ∀ c ∈ text, c ≠ '\'' ∧ c ≠ '$' ∧ c ≠ ')') :
    Begins ('\'' :: (text ++ ['\''])) (text.map (⟨·, .single⟩)) [] := by
  have hreads : Reads .single text (text.map (⟨·, .single⟩)) := by
    simpa using Reads.flatMap (fun c => [c]) (⟨·, .single⟩) text fun c hc =>
      Reads.single (h c hc).1
  refine .of_opens (Opens.single hreads) fun tokens => Lifts.of_plain _ ?_
  simp only [List.mem_cons, List.mem_append, List.not_mem_nil, or_false]
  rintro c (rfl | hc | rfl)
  · decide
  · exact (h c hc).2
  · decide

/-- The launcher is printed. -/
theorem isRead_print : printCommand.IsRead := by
  have hformat := begins_single "ret-r-launcher\\n%s\\n".toList (by simp)
  exact isRead_of_words (.cons (begins_plain "printf" (by decide) (by decide))
    (.cons hformat (.cons begins_launcher .nil))) (List.cons_ne_nil _ _)
    (by simp [printCommand]) (by simp [printCommand, plainWord, variableWord]) rfl

/-- INTERNAL: the parts of the command that runs the launcher. -/
theorem probe_text (info : String) :
    "case \"$_ret_r_exe\" in *Rscript|*Rscript.exe) \"$_ret_r_exe\" --vanilla -e " ++ info ++
        ";; *) \"$_ret_r_exe\" --vanilla -s -e " ++ info ++ ";; esac" =
      "case" ++ " " ++ "\"$_ret_r_exe\"" ++ " " ++ "in" ++ " " ++ "*Rscript" ++ "|" ++
        "*Rscript.exe" ++ ")" ++ " " ++ "\"$_ret_r_exe\"" ++ " " ++ "--vanilla" ++ " " ++ "-e" ++
        " " ++ info ++ (";" ++ ";" ++ " " ++ "*" ++ ")" ++ " " ++
        "\"$_ret_r_exe\"" ++ " " ++ "--vanilla" ++ " " ++ "-s" ++ " " ++ "-e" ++ " ") ++
        info ++ (";" ++ ";" ++ " " ++ "esac") := by
  rfl

/-- The launcher is run. -/
theorem isRead_probe : probeCommand.IsRead := by
  unfold Command.IsRead probeCommand
  generalize rInfoCmd = info
  have hword := fun text hne hall => IsScript.word [] (begins_plain text hne hall)
  have hlauncher := IsScript.word [] begins_launcher
  have hinfo := IsScript.word [] (begins_quoteShellArgument info)
  have hblank : IsClosed [] [' '] [] [] := (isScript_nil []).blank
  have hcase := ((hword "case" (by decide) (by decide)).append hlauncher).append
    ((hword "in" (by decide) (by decide)).append (hword "*Rscript" (by decide) (by decide)))
  have hbar := hcase.operator (c := '|') (by decide) fun _ => rfl
  have hpattern := (hbar.script (hword "*Rscript.exe" (by decide) (by decide))).operator
    (c := ')') (by decide) fun _ => rfl
  have hrscript := ((hpattern.append hblank).script
    ((hlauncher.append (hword "--vanilla" (by decide) (by decide))).append
      ((hword "-e" (by decide) (by decide)).append hinfo))).operator (c := ';') (by decide)
        fun _ => rfl
  have hother := (((hrscript.isScript.operator (c := ';') (by decide) fun _ => rfl).append
    hblank).script (hword "*" (by decide) (by decide))).operator (c := ')') (by decide)
      fun _ => rfl
  have hr := ((hother.append hblank).script
    ((hlauncher.append (hword "--vanilla" (by decide) (by decide))).append
      ((hword "-s" (by decide) (by decide)).append
        ((hword "-e" (by decide) (by decide)).append hinfo)))).operator (c := ';') (by decide)
          fun _ => rfl
  have hend := ((hr.isScript.operator (c := ';') (by decide) fun _ => rfl).append
    hblank).script (hword "esac" (by decide) (by decide))
  rw [probe_text]
  have hsigns : " ".toList = [' '] ∧ "|".toList = ['|'] ∧ ")".toList = [')'] ∧
      ";".toList = [';'] := ⟨rfl, rfl, rfl, rfl⟩
  simp only [String.toList_append, hsigns, List.append_assoc, -String.reduceToList] at hend ⊢
  exact hend

/-! ## The scripts -/

/-- The commands that prepare the environment of an entry: its module is loaded, and its script
is run. -/
def startupCommands (load : Option (String × String)) (script : Option String) : List Command :=
  (load.map fun command => loadCommands command.1 command.2).getD [] ++
    script.toList.map sourceCommand

/-- The commands in which an entry with a library is resolved. -/
def libraryCommands (commands : List Command) (library : Option String) : List Command :=
  (if commands = [] then [noCommand] else commands) ++ library.toList.map libraryCommand

/-- The commands one after the other. -/
def commandsText (commands : List Command) : String :=
  " && ".intercalate (commands.map (·.text))

/-- Commands that are read are read as a script. -/
theorem readScript_commandsText {commands : List Command}
    (h : ∀ command ∈ commands, command.IsRead) (hne : commands ≠ []) :
    readScript (commandsText commands) = some (scriptOf commands) := by
  apply readScript_of_isScript
  have hscript := isScript_commands h hne
  have htext : (commandsText commands).toList =
      " && ".toList.intercalate (commands.map (·.text.toList)) := by
    rw [commandsText, String.toList_intercalate, List.map_map]
    rfl
  rwa [htext]

/-- INTERNAL: two lists of commands. -/
theorem commandsText_append {first second : List Command} (hfirst : first ≠ [])
    (hsecond : second ≠ []) :
    commandsText (first ++ second) = commandsText first ++ " && " ++ commandsText second := by
  rw [commandsText, List.map_append, String.intercalate_append_of_ne_nil
    (by simpa using hfirst) (by simpa using hsecond)]
  rfl

/-- INTERNAL: a text in parts, after others. -/
theorem append_parts {text first sep rest : String} (h : text = first ++ sep ++ rest)
    (before : String) : before ++ text = before ++ first ++ sep ++ rest := by
  rw [h, String.append_assoc, String.append_assoc, String.append_assoc]

section Entries

variable (host : ActivationHost) (modulecmd : Option PathBuf) (entry : RVersionsEntry)

/-- The module that an entry loads, and the command for it. -/
def loadOf : Option (String × String) :=
  entry.module.bind fun module =>
    modulecmd.map fun modulecmd => (host.os.toStringLossy modulecmd, module)

/-- The command that loads a module is that of its commands. -/
theorem buildModuleStartupCommand_eq (os : Os) (modulecmd : PathBuf) (moduleName : String) :
    buildModuleStartupCommand os modulecmd moduleName =
      commandsText (loadCommands (os.toStringLossy modulecmd) moduleName) := by
  have heval : ")\" && eval \"$_ret_module_code\"" =
      ")\"" ++ " && " ++ "eval \"$_ret_module_code\"" := by
    rfl
  exact (append_parts heval _).trans
    (String.intercalate_cons_cons.trans (congrArg _ String.intercalate_singleton)).symm

/-- INTERNAL: the command that loads the module of an entry. -/
theorem moduleStartup_eq :
    moduleStartup host modulecmd entry =
      (loadOf host modulecmd entry).map fun load => commandsText (loadCommands load.1 load.2) := by
  unfold moduleStartup loadOf
  cases entry.module with
  | none => rfl
  | some module =>
    cases modulecmd with
    | none => rfl
    | some modulecmd => exact congrArg some (buildModuleStartupCommand_eq host.os modulecmd module)

/-- INTERNAL: the command that runs a script, after others. -/
theorem commandsText_source {commands : List Command} (hne : commands ≠ []) (script : String) :
    commandsText (commands ++ [sourceCommand script]) =
      commandsText commands ++ " && . " ++ quoteShellArgument script := by
  have hand : " && . " = " && " ++ ". " := by
    rfl
  have hsource : commandsText [sourceCommand script] = ". " ++ quoteShellArgument script :=
    String.intercalate_singleton
  rw [commandsText_append hne (List.cons_ne_nil _ _), hsource, hand, String.append_assoc,
    String.append_assoc, String.append_assoc]

/-- INTERNAL: the command that sets the library, after others. -/
theorem commandsText_library {commands : List Command} (hne : commands ≠ []) (library : String) :
    commandsText (commands ++ [libraryCommand library]) =
      commandsText commands ++ " && export R_LIBS=" ++ quoteShellArgument library := by
  have hand : " && export R_LIBS=" = " && " ++ "export R_LIBS=" := by
    rfl
  have hlibrary : commandsText [libraryCommand library] =
      "export R_LIBS=" ++ quoteShellArgument library :=
    String.intercalate_singleton
  rw [commandsText_append hne (List.cons_ne_nil _ _), hlibrary, hand, String.append_assoc,
    String.append_assoc, String.append_assoc]

/-- **The startup command of an entry** is that of its commands. -/
theorem combineStartupCommand_eq :
    combineStartupCommand (moduleStartup host modulecmd entry) entry.script =
      if startupCommands (loadOf host modulecmd entry) entry.script = [] then none
      else some (commandsText (startupCommands (loadOf host modulecmd entry) entry.script)) := by
  rw [moduleStartup_eq]
  cases loadOf host modulecmd entry with
  | none =>
    cases entry.script with
    | none => rfl
    | some script => exact congrArg some String.intercalate_singleton.symm
  | some load =>
    have hload : loadCommands load.1 load.2 ≠ [] := List.cons_ne_nil _ _
    cases entry.script with
    | none => simp [combineStartupCommand, startupCommands, hload]
    | some script =>
      have hall : startupCommands (some load) (some script) =
          loadCommands load.1 load.2 ++ [sourceCommand script] := rfl
      rw [hall, if_neg (by simp), commandsText_source hload]
      rfl

/-- The script in which an entry is resolved is that of its commands. -/
theorem entryStartup_eq {startup : String}
    (h : entryStartup (combineStartupCommand (moduleStartup host modulecmd entry) entry.script)
      entry.library = some startup) :
    startup = commandsText
      (libraryCommands (startupCommands (loadOf host modulecmd entry) entry.script)
        entry.library) := by
  rw [combineStartupCommand_eq] at h
  generalize startupCommands (loadOf host modulecmd entry) entry.script = commands at h ⊢
  have hbase : (if commands = [] then none else some (commandsText commands)).getD ":" =
      commandsText (if commands = [] then [noCommand] else commands) := by
    split
    · exact String.intercalate_singleton.symm
    · rfl
  have hne : (if commands = [] then [noCommand] else commands) ≠ [] := by
    split
    · exact List.cons_ne_nil _ _
    · assumption
  unfold entryStartup at h
  generalize (if commands = [] then none else some (commandsText commands)) = command at h hbase
  split at h
  · obtain rfl := Option.some.inj h
    rw [hbase]
    unfold libraryCommands
    cases entry.library with
    | none => rw [Option.toList_none, List.map_nil, List.append_nil]
    | some library =>
      rw [Option.toList_some, List.map_singleton, commandsText_library hne]
  · cases h

end Entries

/-- INTERNAL: the parts of the script of `resolve_with_startup`. -/
theorem script_parts {first second third sep launcher test print probe : String}
    (hfirst : first = sep ++ launcher) (hsecond : second = sep ++ test ++ sep ++ print)
    (hthird : third = sep ++ probe) (startup executable info next last : String) :
    startup ++ first ++ executable ++ second ++ third ++ info ++ next ++ info ++ last =
      startup ++ sep ++ (launcher ++ executable ++ sep ++ (test ++ sep ++ (print ++ sep ++
        (probe ++ info ++ next ++ info ++ last)))) := by
  subst hfirst hsecond hthird
  simp only [String.append_assoc]

/-- `resolve_with_startup` runs the commands of the launcher after those that it is given. -/
theorem startupScript_eq (host : RuntimeHost) (executable : Option PathBuf)
    {commands : List Command} (hne : commands ≠ []) :
    startupScript host executable (commandsText commands) =
      commandsText (commands ++ launcherCommands (executable.map host.os.toStringLossy)) := by
  have hlauncher : (launcherCommand (executable.map host.os.toStringLossy)).text =
      "_ret_r_exe=" ++ startupLauncher host executable := by
    cases executable <;> rfl
  have hfirst : " && _ret_r_exe=" = " && " ++ "_ret_r_exe=" := by
    rfl
  have hsecond : " && [ -n \"$_ret_r_exe\" ] && printf 'ret-r-launcher\\n%s\\n' \"$_ret_r_exe\"" =
      " && " ++ testCommand.text ++ " && " ++ printCommand.text := by
    rfl
  have hthird : " && case \"$_ret_r_exe\" in *Rscript|*Rscript.exe) \"$_ret_r_exe\" --vanilla -e " =
      " && " ++ "case \"$_ret_r_exe\" in *Rscript|*Rscript.exe) \"$_ret_r_exe\" --vanilla -e " := by
    rfl
  have htext : commandsText (launcherCommands (executable.map host.os.toStringLossy)) =
      (launcherCommand (executable.map host.os.toStringLossy)).text ++ " && " ++
        (testCommand.text ++ " && " ++ (printCommand.text ++ " && " ++ probeCommand.text)) := by
    rw [commandsText, launcherCommands, List.map_cons, List.map_cons, List.map_cons,
      List.map_cons, List.map_nil, String.intercalate_cons_cons, String.intercalate_cons_cons,
      String.intercalate_cons_cons, String.intercalate_singleton]
  have hlast : launcherCommands (executable.map host.os.toStringLossy) ≠ [] :=
    List.cons_ne_nil _ _
  rw [commandsText_append hne hlast, htext, hlauncher]
  exact script_parts hfirst hsecond hthird _ _ _ _ _

/-- INTERNAL: every command that prepares the environment is read. -/
theorem isRead_startup (load : Option (String × String)) (script : Option String) :
    ∀ command ∈ startupCommands load script, command.IsRead := by
  intro command hcommand
  obtain hload | hscript := List.mem_append.mp hcommand
  · cases load with
    | none => cases hload
    | some load => exact isRead_load load.1 load.2 command hload
  · obtain ⟨script, -, rfl⟩ := List.mem_map.mp hscript
    exact isRead_source script

/-- INTERNAL: so is every command in which an entry is resolved. -/
theorem isRead_resolving (load : Option (String × String))
    (script library executable : Option String) :
    ∀ command ∈ libraryCommands (startupCommands load script) library ++
      launcherCommands executable, command.IsRead := by
  intro command hcommand
  obtain hcommand | hcommand := List.mem_append.mp hcommand
  · obtain hcommand | hcommand := List.mem_append.mp hcommand
    · split at hcommand
      · obtain rfl := List.mem_singleton.mp hcommand
        exact isRead_nothing
      · exact isRead_startup load script command hcommand
    · obtain ⟨library, -, rfl⟩ := List.mem_map.mp hcommand
      exact isRead_library library
  · simp only [launcherCommands, List.mem_cons, List.not_mem_nil, or_false] at hcommand
    obtain rfl | rfl | rfl | rfl := hcommand
    · exact isRead_launcher executable
    · exact isRead_test
    · exact isRead_print
    · exact isRead_probe

/-- **The shell reads every startup command as it is meant**, whatever characters the names in it
consist of: the command of an entry of an `r-versions` file, the script in which the entry is
resolved, and the activation of a conda environment. A name is read as one word with each
character literal. -/
theorem startup_scripts (host : ActivationHost) (modulecmd : Option PathBuf)
    (entry : RVersionsEntry) :
    (∀ command, combineStartupCommand (moduleStartup host modulecmd entry) entry.script =
        some command →
      readScript command =
        some (scriptOf (startupCommands (loadOf host modulecmd entry) entry.script))) ∧
    (∀ startup executable,
      entryStartup (combineStartupCommand (moduleStartup host modulecmd entry) entry.script)
        entry.library = some startup →
      readScript (startupScript host.toRuntimeHost executable startup) =
        some (scriptOf (libraryCommands
          (startupCommands (loadOf host modulecmd entry) entry.script) entry.library ++
            launcherCommands (executable.map host.os.toStringLossy)))) ∧
    (∀ (conda : CondaHost) condaPrefix command,
      buildCondaStartupCommand conda condaPrefix = some command →
      readScript command =
        some (scriptOf [activateCommand (conda.os.toStringLossy condaPrefix)])) ∧
    ∀ argument, wordText (argumentWord argument) = argument ∧
      ∀ c ∈ argumentWord argument, c.Inert := by
  refine ⟨fun command hcommand => ?_, fun startup executable hstartup => ?_,
    fun conda condaPrefix command hcommand => ?_,
    fun argument => ⟨wordText_argumentWord argument, inert_argumentWord argument⟩⟩
  · rw [combineStartupCommand_eq] at hcommand
    split at hcommand
    · cases hcommand
    · rename_i hne
      obtain rfl := Option.some.inj hcommand
      exact readScript_commandsText (isRead_startup _ _) hne
  · have hne : libraryCommands (startupCommands (loadOf host modulecmd entry) entry.script)
        entry.library ≠ [] := by
      unfold libraryCommands
      split
      · exact List.cons_ne_nil _ _
      · rename_i hne
        exact fun hnil => hne (List.append_eq_nil_iff.mp hnil).1
    rw [entryStartup_eq host modulecmd entry hstartup,
      startupScript_eq host.toRuntimeHost executable hne]
    exact readScript_commandsText (isRead_resolving _ _ _ _)
      fun hnil => hne (List.append_eq_nil_iff.mp hnil).1
  · unfold buildCondaStartupCommand at hcommand
    split at hcommand
    · cases hcommand
    · obtain rfl := Option.some.inj hcommand
      have htext : commandsText [activateCommand (conda.os.toStringLossy condaPrefix)] =
          "conda activate " ++ quoteShellArgument (conda.os.toStringLossy condaPrefix) :=
        String.intercalate_singleton
      rw [← htext]
      refine readScript_commandsText (fun command hcommand => ?_) (List.cons_ne_nil _ _)
      obtain rfl := List.mem_singleton.mp hcommand
      exact isRead_activate _

/-! ## A module with a script and a library -/

/-- A machine without R. -/
def moduleHost : ActivationHost where
  os := unixOs
  macos := false
  pathFrom := unixPath
  var _ := none
  isFile _ := false
  read _ := none
  run _ _ := none
  isDir _ := false
  findExecutable _ := none
  isSymlink _ := false
  probe _ := none
  getEnvVar _ := none
  userHome := none
  pathExists _ := false
  searchPath := []
  splitPaths _ := []
  readToString _ := none
  inferFromPath _ := .x64

/-- An entry whose names have a meaning in the shell. -/
def quotedEntry : RVersionsEntry where
  module := some "R/4.3$(id)"
  script := some "/opt/r's.sh"
  library := some "/lib;a"

/-- The theorem for this entry. -/
theorem startup_scripts_quoted :
    ∃ startup, entryStartup (combineStartupCommand
        (moduleStartup moduleHost (some (rootedPath ["modulecmd"])) quotedEntry)
          quotedEntry.script) quotedEntry.library = some startup ∧
      readScript (startupScript moduleHost.toRuntimeHost none startup) =
        some (scriptOf (libraryCommands
          (startupCommands (some ("/modulecmd", "R/4.3$(id)")) (some "/opt/r's.sh"))
            (some "/lib;a") ++ launcherCommands none)) :=
  ⟨_, rfl, (startup_scripts moduleHost (some (rootedPath ["modulecmd"])) quotedEntry).2.1 _ none
    rfl⟩

end REnvTools.Analysis
