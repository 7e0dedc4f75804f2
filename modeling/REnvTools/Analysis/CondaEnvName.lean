import REnvTools.Lib.Words
import REnvTools.Program.CondaEnvName

/-!
# When the name of an environment is found

The program looks for `-n name` or `--name name` anywhere in the creation line, while the command
names an environment by whole words of its arguments. The two agree on an option and a name that
stand as two words with one blank between them; what else the search finds, and how else the
command may name the environment, are the two sides of the condition.
-/

set_option autoImplicit false

namespace REnvTools.Analysis

open Lib Program

/-! ## The command -/

/-- What follows `create` in a creation line. -/
def argumentText (line : List Char) : List Char :=
  match line.tails.find? fun text => " create -".toList.isPrefixOf (text.map Char.toLower) with
  | some text => text.drop " create ".toList.length
  | none => []

/-- The arguments of the command, split at white space. -/
def createArguments (line : List Char) : List (List Char) := words isWhitespace (argumentText line)

/-- The options that give a name. -/
def nameOptions : List (List Char) := ["-n".toList, "--name".toList]

/-- The arguments name the environment. -/
def Names (arguments : List (List Char)) (name : List Char) : Prop :=
  (∃ option ∈ nameOptions, [option, name] <:+: arguments) ∨ "--name=".toList ++ name ∈ arguments

/-- What the program looks for stands between `before` and `after`. -/
def StandsAt (line before after name : List Char) : Prop :=
  ∃ option ∈ nameOptions, line = before ++ (option ++ [' '] ++ name) ++ after

/-- It stands among the arguments, as two words. -/
def AsWords (line before after name : List Char) : Prop :=
  IsWord isWhitespace name ∧ BeginsApart isWhitespace after ∧
    ∃ head first, line = head ++ argumentText line ∧ before = head ++ first ∧
      EndsApart isWhitespace first

/-- The command gives the name as the word after the option, with one blank between them. -/
def NamedPlainly (line name : List Char) : Prop :=
  ∃ before after, StandsAt line before after name ∧ AsWords line before after name

/-- What the program looks for is part of something else. -/
def FoundElsewhere (line name : List Char) : Prop :=
  ∃ before after, StandsAt line before after name ∧ ¬AsWords line before after name

/-- The command gives the name behind `--name=`, or with other white space between the option and
the name. -/
def NamedOtherwise (line name : List Char) : Prop :=
  "--name=".toList ++ name ∈ createArguments line ∨
    IsWord isWhitespace name ∧ ∃ option ∈ nameOptions, ∃ first between last,
      argumentText line = first ++ option ++ between ++ name ++ last ∧ between ≠ [] ∧
      between ≠ [' '] ∧ (∀ c ∈ between, isWhitespace c = true) ∧
      EndsApart isWhitespace first ∧ BeginsApart isWhitespace last

/-- Neither is what the program looks for part of something else, nor does the command give the
name in another way. -/
def NeitherFoundNorNamed (line name : List Char) : Prop :=
  ¬FoundElsewhere line name ∧ ¬NamedOtherwise line name

/-- What the program looks for is part of something else, while the command gives the name in
another way: the search is right by accident. -/
def FoundByAccident (line name : List Char) : Prop :=
  FoundElsewhere line name ∧ NamedOtherwise line name

/-! ## Both sides -/

/-- INTERNAL: the arguments are the end of the line. -/
theorem argumentText_suffix (line : List Char) : argumentText line <:+ line := by
  unfold argumentText
  split
  · rename_i text htext
    exact (List.drop_suffix _ _).trans ((List.mem_tails _ _).mp (List.mem_of_find?_eq_some htext))
  · exact List.nil_suffix

/-- INTERNAL: an option is a word. -/
theorem isWord_option {option : List Char} (h : option ∈ nameOptions) :
    IsWord isWhitespace option := by
  rw [nameOptions, List.mem_pair] at h
  obtain rfl | rfl := h <;> decide

/-- What the program searches for. -/
theorem isCondaEnvNameInCmd_iff {line : List Char} {name : String} :
    isCondaEnvNameInCmd line name = true ↔
      NamedPlainly line name.toList ∨ FoundElsewhere line name.toList := by
  have hstands : isCondaEnvNameInCmd line name = true ↔
      ∃ before after, StandsAt line before after name.toList := by
    unfold isCondaEnvNameInCmd StandsAt nameOptions
    rw [Bool.or_eq_true, decide_eq_true_eq, decide_eq_true_eq]
    constructor
    · rintro (⟨before, after, rfl⟩ | ⟨before, after, rfl⟩)
      · exact ⟨before, after, "-n".toList, by simp, rfl⟩
      · exact ⟨before, after, "--name".toList, by simp, rfl⟩
    · rintro ⟨before, after, option, hoption, rfl⟩
      rw [List.mem_pair] at hoption
      rcases hoption with rfl | rfl
      · exact .inl ⟨before, after, rfl⟩
      · exact .inr ⟨before, after, rfl⟩
  rw [hstands]
  constructor
  · rintro ⟨before, after, h⟩
    by_cases hwords : AsWords line before after name.toList
    · exact .inl ⟨before, after, h, hwords⟩
    · exact .inr ⟨before, after, h, hwords⟩
  · rintro (⟨before, after, h, -⟩ | ⟨before, after, h, -⟩)
    · exact ⟨before, after, h⟩
    · exact ⟨before, after, h⟩

/-- INTERNAL: a plain naming, seen from the arguments. -/
theorem namedPlainly_iff {line name : List Char} :
    NamedPlainly line name ↔
      IsWord isWhitespace name ∧ ∃ option ∈ nameOptions, ∃ first last,
        argumentText line = first ++ option ++ [' '] ++ name ++ last ∧
        EndsApart isWhitespace first ∧ BeginsApart isWhitespace last := by
  constructor
  · rintro ⟨before, last, ⟨option, hoption, hline⟩, hname, hlast, head, first, hhead, rfl, hfirst⟩
    refine ⟨hname, option, hoption, first, last, ?_, hfirst, hlast⟩
    apply List.append_cancel_left
    rw [← hhead, hline]
    simp
  · rintro ⟨hname, option, hoption, first, last, hargument, hfirst, hlast⟩
    obtain ⟨head, hhead⟩ := argumentText_suffix line
    refine ⟨head ++ first, last, ⟨option, hoption, ?_⟩, hname, hlast, head, first, hhead.symm, rfl,
      hfirst⟩
    rw [← hhead, hargument]
    simp

/-- How the command may name the environment. -/
theorem names_iff {line name : List Char} :
    Names (createArguments line) name ↔ NamedPlainly line name ∨ NamedOtherwise line name := by
  rw [namedPlainly_iff]
  unfold Names NamedOtherwise createArguments
  constructor
  · rintro (⟨option, hoption, hinfix⟩ | hmem)
    · obtain ⟨-, hname, first, between, last, hargument, hne, hspace, hfirst, hlast⟩ :=
        infix_words_iff.mp hinfix
      by_cases hblank : between = [' ']
      · subst hblank
        exact .inl ⟨hname, option, hoption, first, last, hargument, hfirst, hlast⟩
      · exact .inr (.inr ⟨hname, option, hoption, first, between, last, hargument, hne, hblank,
          hspace, hfirst, hlast⟩)
    · exact .inr (.inl hmem)
  · rintro (⟨hname, option, hoption, first, last, hargument, hfirst, hlast⟩ | hmem |
      ⟨hname, option, hoption, first, between, last, hargument, hne, -, hspace, hfirst, hlast⟩)
    · have hblank : ∀ c ∈ [' '], isWhitespace c = true :=
        List.forall_mem_singleton.mpr (by decide)
      exact .inl ⟨option, hoption, infix_words_iff.mpr ⟨isWord_option hoption, hname, first, [' '],
        last, hargument, List.cons_ne_nil _ _, hblank, hfirst, hlast⟩⟩
    · exact .inr hmem
    · exact .inl ⟨option, hoption, infix_words_iff.mpr ⟨isWord_option hoption, hname, first,
        between, last, hargument, hne, hspace, hfirst, hlast⟩⟩

/-- **The name of an environment outside of the installation** is found exactly if the command of
the creation line names the environment, if and only if the command gives the name plainly, or the
search finds it nowhere and the command does not give it, or the search is right by accident. -/
theorem getCondaEnvName_outside_iff {tree : DirectoryTree}
    {readToString : PathBuf → Option String} {condaPrefix condaDir : PathBuf} {name : String}
    {line : List Char} (houtside : condaPrefix.startsWith condaDir = false)
    (hname : condaPrefix.fileName = some name)
    (hline : getCondaCreationLineFromHistory readToString condaPrefix = some line) :
    ((getCondaEnvName readToString tree condaPrefix (some condaDir) = some name ↔
        Names (createArguments line) name.toList) ∧
      (¬Names (createArguments line) name.toList →
        getCondaEnvName readToString tree condaPrefix (some condaDir) = none)) ↔
      NamedPlainly line name.toList ∨ NeitherFoundNorNamed line name.toList ∨
        FoundByAccident line name.toList := by
  have hcode : getCondaEnvName readToString tree condaPrefix (some condaDir) =
      if isCondaEnvNameInCmd line name then some name else none := by
    unfold getCondaEnvName getCondaEnvNameFromHistoryFile
    dsimp only
    rw [houtside, if_neg Bool.false_ne_true, hname, Option.bind_some, hline]
  have hsearch : isCondaEnvNameInCmd line name = true ↔
      NamedPlainly line name.toList ∨ FoundElsewhere line name.toList := isCondaEnvNameInCmd_iff
  rw [hcode, names_iff]
  unfold NeitherFoundNorNamed FoundByAccident
  generalize NamedPlainly line name.toList = plainly at hsearch ⊢
  generalize FoundElsewhere line name.toList = elsewhere at hsearch ⊢
  generalize NamedOtherwise line name.toList = otherwise at ⊢
  cases hfound : isCondaEnvNameInCmd line name with
  | true =>
    rw [hfound] at hsearch
    rw [if_pos rfl]
    grind
  | false =>
    rw [hfound] at hsearch
    rw [if_neg Bool.false_ne_true]
    grind

/-! ## An environment `/home/env` -/

/-- The creation line with these arguments. -/
def creationLine (arguments : String) : String := "# cmd: /opt/bin/conda create " ++ arguments

/-- INTERNAL: the creation line is found. -/
theorem creationLine_found (arguments : String)
    (h : ((lines (creationLine arguments).toList).map trim).find? isCreationLine =
      some (creationLine arguments).toList) :
    getCondaCreationLineFromHistory (fun _ => some (creationLine arguments))
      (rootedPath ["home", "env"]) = some (creationLine arguments).toList := h

/-- The command names the environment plainly. -/
theorem getCondaEnvName_plain :
    getCondaEnvName (fun _ => some (creationLine "-n env r-base")) (plainTree [] [] (by decide))
      (rootedPath ["home", "env"]) (some (rootedPath ["opt"])) = some "env" := by
  have hplain : NamedPlainly (creationLine "-n env r-base").toList "env".toList :=
    namedPlainly_iff.mpr ⟨by decide, "-n".toList, by decide, [], " r-base".toList, by decide,
      by decide, by decide⟩
  exact ((getCondaEnvName_outside_iff (by decide) (by decide)
    (creationLine_found "-n env r-base" (by decide))).mpr (.inl hplain)).1.mpr
      (names_iff.mpr (.inl hplain))

/-- The search finds a longer name. -/
theorem env_name_of_longer_name :
    ¬∀ (tree : DirectoryTree) (readToString : PathBuf → Option String)
      (condaPrefix condaDir : PathBuf) (name : String) (line : List Char),
      condaPrefix.startsWith condaDir = false → condaPrefix.fileName = some name →
      getCondaCreationLineFromHistory readToString condaPrefix = some line →
      (getCondaEnvName readToString tree condaPrefix (some condaDir) = some name ↔
        Names (createArguments line) name.toList) ∧
      (¬Names (createArguments line) name.toList →
        getCondaEnvName readToString tree condaPrefix (some condaDir) = none) := by
  intro h
  have hclaim := h (plainTree [] [] (by decide)) (fun _ => some (creationLine "-n env2"))
    (rootedPath ["home", "env"]) (rootedPath ["opt"]) "env" (creationLine "-n env2").toList
    (by decide) (by decide) (creationLine_found "-n env2" (by decide))
  have hnames : ¬Names (createArguments (creationLine "-n env2").toList) "env".toList := by
    have harguments : createArguments (creationLine "-n env2").toList =
        ["-n".toList, "env2".toList] := by decide
    rw [harguments]
    unfold Names
    decide
  exact absurd (hclaim.2 hnames) (by decide)

end REnvTools.Analysis
