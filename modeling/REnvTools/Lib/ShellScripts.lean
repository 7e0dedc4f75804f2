import REnvTools.Lib.ShellWords

/-!
# How a POSIX shell reads scripts

The reader of words (`ShellWords`), with command substitutions. Where `$(` stands outside quotes
or between double quotes, the words read so far are put aside, and the script up to the closing
parenthesis is read with a quoting of its own; the `$` stays in the word and stands for it. As
before, expansions are not carried out, and an operator of several characters is given as its
characters.

Not read as a shell does are arithmetic expansions, backquotes, here-documents, and parentheses
within a substitution other than those of further substitutions.

`IsScript` says what a text contributes to the script, and `IsClosed` that besides no word is left
open at its end. They are put together from the words (`IsScript.word`), blanks and operators.
-/

set_option autoImplicit false

namespace REnvTools.Lib.ShellScripts

open ShellWords

/-! ## The machine -/

/-- A script: its tokens, and the scripts in its command substitutions, in their order. -/
inductive Script
  | mk (tokens : List Token) (substitutions : List Script)

/-- The script being read. -/
structure Frame where
  words : Reader
  /-- The last character was a `$` that may begin a substitution. -/
  dollar : Bool
  substitutions : List Script

namespace Frame

/-- Nothing is read yet. -/
def fresh : Frame := ⟨⟨.bare, none, []⟩, false, []⟩

/-- The script, if it ends here. -/
def script (f : Frame) : Script := .mk f.words.flush.tokens f.substitutions

/-- A character that neither begins nor ends a substitution. -/
def read (f : Frame) (c : Char) : Frame :=
  { f with
    words := f.words.step c
    dollar := c = '$' && (f.words.mode = .bare || f.words.mode = .double) }

end Frame

/-- The script being read, and those that it is a part of. -/
structure ScriptReader where
  frame : Frame
  outer : List Frame

namespace ScriptReader

/-- One character. -/
def step (r : ScriptReader) (c : Char) : ScriptReader :=
  if r.frame.dollar && c = '(' then ⟨.fresh, { r.frame with dollar := false } :: r.outer⟩
  else if r.frame.words.mode = .bare && c = ')' then
    match r.outer with
    | [] => ⟨r.frame.read c, []⟩
    | frame :: outer =>
      ⟨{ frame with substitutions := frame.substitutions ++ [r.frame.script] }, outer⟩
  else ⟨r.frame.read c, r.outer⟩

/-- A stretch of text. -/
def run (r : ScriptReader) (text : List Char) : ScriptReader := text.foldl step r

/-- INTERNAL: no text is read. -/
@[simp] theorem run_nil (r : ScriptReader) : r.run [] = r := by rfl

/-- INTERNAL: the first character is read first. -/
@[simp] theorem run_cons (r : ScriptReader) (c : Char) (text : List Char) :
    r.run (c :: text) = (r.step c).run text := by rfl

/-- A text is read and then what follows it. -/
@[simp] theorem run_append (r : ScriptReader) (text rest : List Char) :
    r.run (text ++ rest) = (r.run text).run rest := by
  simp only [run, List.foldl_append]

end ScriptReader

/-- The script of a text; none for a text that ends within a quotation or a substitution. -/
def readScript (text : String) : Option Script :=
  let r := ScriptReader.run ⟨.fresh, []⟩ text.toList
  match r.outer, r.frame.words.mode with
  | [], .bare | [], .comment => some r.frame.script
  | _, _ => none

/-! ## Text without substitutions -/

/-- The text is read as the reader of words reads it. -/
def Lifts (words : Reader) (text : List Char) : Prop :=
  ∀ substitutions outer, ScriptReader.run ⟨⟨words, false, substitutions⟩, outer⟩ text =
    ⟨⟨words.run text, false, substitutions⟩, outer⟩

/-- INTERNAL: no text. -/
theorem Lifts.nil (words : Reader) : Lifts words [] := by
  intro substitutions outer
  rfl

/-- INTERNAL: two stretches one after the other. -/
theorem Lifts.append {words : Reader} {text text' : List Char} (h : Lifts words text)
    (h' : Lifts (words.run text) text') : Lifts words (text ++ text') := by
  intro substitutions outer
  rw [ScriptReader.run_append, h, h', Reader.run_append]

/-- INTERNAL: a character that has no part in a substitution. -/
theorem Lifts.char {words : Reader} {c : Char}
    (hdollar : c = '$' → words.mode ≠ .bare ∧ words.mode ≠ .double)
    (hclose : c = ')' → words.mode ≠ .bare) : Lifts words [c] := by
  intro substitutions outer
  have hread : Frame.read ⟨words, false, substitutions⟩ c =
      ⟨words.step c, false, substitutions⟩ := by
    unfold Frame.read
    by_cases hc : c = '$'
    · simp [hc, (hdollar hc).1, (hdollar hc).2]
    · simp [hc]
  by_cases hc : c = ')'
  · simp [ScriptReader.step, hclose hc, hread]
  · simp [ScriptReader.step, hc, hread]

/-- Text without `$` and `)`. -/
theorem Lifts.of_plain (words : Reader) {text : List Char}
    (h : ∀ c ∈ text, c ≠ '$' ∧ c ≠ ')') : Lifts words text := by
  induction text generalizing words with
  | nil => exact Lifts.nil words
  | cons c text ih =>
    obtain ⟨hdollar, hclose⟩ := h c List.mem_cons_self
    have hfirst : Lifts words [c] :=
      Lifts.char (fun hc => absurd hc hdollar) fun hc => absurd hc hclose
    exact hfirst.append (ih (words.run [c]) fun c' hc' => h c' (List.mem_cons_of_mem c hc'))

/-- Within single quotes, a text written one character at a time. -/
theorem Lifts.flatMap (write : Char → List Char) (read : Char → QuotedChar) (text : List Char)
    (hreads : ∀ c ∈ text, Reads .single (write c) [read c])
    (h : ∀ c ∈ text, ∀ word tokens, Lifts ⟨.single, some word, tokens⟩ (write c))
    (word : List QuotedChar) (tokens : List Token) :
    Lifts ⟨.single, some word, tokens⟩ (text.flatMap write) := by
  induction text generalizing word with
  | nil => exact Lifts.nil _
  | cons c text ih =>
    rw [List.flatMap_cons]
    refine (h c List.mem_cons_self word tokens).append ?_
    rw [hreads c List.mem_cons_self]
    exact ih (fun c' hc' => hreads c' (List.mem_cons_of_mem c hc'))
      (fun c' hc' => h c' (List.mem_cons_of_mem c hc')) _

/-! ## Words -/

/-- Within a word, and starting and ending in `mode`, the text adds the characters to the word and
the substitutions to the script. -/
def Adds (mode : Mode) (text : List Char) (chars : List QuotedChar)
    (substitutions : List Script) : Prop :=
  ∀ word tokens before outer,
    ScriptReader.run ⟨⟨⟨mode, some word, tokens⟩, false, before⟩, outer⟩ text =
      ⟨⟨⟨mode, some (word ++ chars), tokens⟩, false, before ++ substitutions⟩, outer⟩

/-- Between words, the text begins a word with these characters and stays in it. -/
def Begins (text : List Char) (chars : List QuotedChar) (substitutions : List Script) : Prop :=
  ∀ tokens before outer,
    ScriptReader.run ⟨⟨⟨.bare, none, tokens⟩, false, before⟩, outer⟩ text =
      ⟨⟨⟨.bare, some chars, tokens⟩, false, before ++ substitutions⟩, outer⟩

/-- A text is read within a word as the reader of words reads it. -/
theorem Adds.of_reads {mode : Mode} {text : List Char} {chars : List QuotedChar}
    (h : Reads mode text chars) (hlifts : ∀ word tokens, Lifts ⟨mode, some word, tokens⟩ text) :
    Adds mode text chars [] := by
  intro word tokens before outer
  rw [hlifts, h, List.append_nil]

/-- A text begins a word as it does for the reader of words. -/
theorem Begins.of_opens {text : List Char} {chars : List QuotedChar} (h : Opens text chars)
    (hlifts : ∀ tokens, Lifts ⟨.bare, none, tokens⟩ text) : Begins text chars [] := by
  intro tokens before outer
  rw [hlifts, h, List.append_nil]

/-- INTERNAL: two parts of a word. -/
theorem Adds.append {mode : Mode} {text text' : List Char} {chars chars' : List QuotedChar}
    {substitutions substitutions' : List Script} (h : Adds mode text chars substitutions)
    (h' : Adds mode text' chars' substitutions') :
    Adds mode (text ++ text') (chars ++ chars') (substitutions ++ substitutions') := by
  intro word tokens before outer
  rw [ScriptReader.run_append, h, h', List.append_assoc, List.append_assoc]

/-- A word goes on. -/
theorem Begins.append {text text' : List Char} {chars chars' : List QuotedChar}
    {substitutions substitutions' : List Script} (h : Begins text chars substitutions)
    (h' : Adds .bare text' chars' substitutions') :
    Begins (text ++ text') (chars ++ chars') (substitutions ++ substitutions') := by
  intro tokens before outer
  rw [ScriptReader.run_append, h, h', List.append_assoc]

/-- A quotation between double quotes, within a word. -/
theorem Adds.doubleQuoted {text : List Char} {chars : List QuotedChar}
    {substitutions : List Script} (h : Adds .double text chars substitutions) :
    Adds .bare ('"' :: (text ++ ['"'])) chars substitutions := by
  intro word tokens before outer
  have hopen : ScriptReader.step ⟨⟨⟨.bare, some word, tokens⟩, false, before⟩, outer⟩ '"' =
      ⟨⟨⟨.double, some word, tokens⟩, false, before⟩, outer⟩ := by
    simp [ScriptReader.step, Frame.read, Reader.step, Reader.quote]
  rw [ScriptReader.run_cons, hopen, ScriptReader.run_append, h]
  simp [ScriptReader.step, Frame.read, Reader.step]

/-- A quotation between double quotes begins a word. -/
theorem Begins.doubleQuoted {text : List Char} {chars : List QuotedChar}
    {substitutions : List Script} (h : Adds .double text chars substitutions) :
    Begins ('"' :: (text ++ ['"'])) chars substitutions := by
  intro tokens before outer
  have hopen : ScriptReader.step ⟨⟨⟨.bare, none, tokens⟩, false, before⟩, outer⟩ '"' =
      ⟨⟨⟨.double, some [], tokens⟩, false, before⟩, outer⟩ := by
    simp [ScriptReader.step, Frame.read, Reader.step, Reader.quote]
  rw [ScriptReader.run_cons, hopen, ScriptReader.run_append, h]
  simp [ScriptReader.step, Frame.read, Reader.step]

/-- Between double quotes, a `$` that begins no substitution. -/
theorem Adds.dollar {c : Char} (hparen : c ≠ '(') (hdollar : c ≠ '$') (hquote : c ≠ '"')
    (hescape : c ≠ '\\') : Adds .double ['$', c] [⟨'$', .double⟩, ⟨c, .double⟩] [] := by
  intro word tokens before outer
  simp [ScriptReader.step, Frame.read, Reader.step, Reader.push, hparen, hdollar, hquote, hescape]

/-! ## Scripts -/

/-- Between words, the text adds these tokens, the last of which may be a word that is not ended,
and these substitutions. -/
def IsScript (outer : List Frame) (text : List Char) (tokens : List Token)
    (substitutions : List Script) : Prop :=
  ∀ first before, ∃ words,
    ScriptReader.run ⟨⟨⟨.bare, none, first⟩, false, before⟩, outer⟩ text =
      ⟨⟨words, false, before ++ substitutions⟩, outer⟩ ∧
    words.mode = .bare ∧ words.flush = ⟨.bare, none, first ++ tokens⟩

/-- The text leaves no word open. -/
def IsClosed (outer : List Frame) (text : List Char) (tokens : List Token)
    (substitutions : List Script) : Prop :=
  ∀ first before, ScriptReader.run ⟨⟨⟨.bare, none, first⟩, false, before⟩, outer⟩ text =
    ⟨⟨⟨.bare, none, first ++ tokens⟩, false, before ++ substitutions⟩, outer⟩

section Scripts

variable {outer : List Frame} {text text' : List Char} {tokens tokens' : List Token}
  {substitutions substitutions' : List Script}

/-- A word. -/
theorem IsScript.word {chars : List QuotedChar} (outer : List Frame)
    (h : Begins text chars substitutions) : IsScript outer text [.word chars] substitutions := by
  intro first before
  exact ⟨_, h first before outer, rfl, rfl⟩

/-- INTERNAL: a blank ends the word. -/
theorem IsScript.blank (h : IsScript outer text tokens substitutions) :
    IsClosed outer (text ++ [' ']) tokens substitutions := by
  intro first before
  obtain ⟨words, hrun, hmode, hflush⟩ := h first before
  have hstep : words.step ' ' = words.flush := by
    simp [Reader.step, hmode, blankChars]
  rw [ScriptReader.run_append, hrun, ← hflush, ← hstep]
  simp [ScriptReader.step, Frame.read]

/-- INTERNAL: an operator ends the word. -/
theorem IsScript.operator (h : IsScript outer text tokens substitutions) {c : Char}
    (hc : c ∈ operatorChars) (hclose : c = ')' → outer = []) :
    IsClosed outer (text ++ [c]) (tokens ++ [.operator c]) substitutions := by
  intro first before
  obtain ⟨words, hrun, hmode, hflush⟩ := h first before
  have hplain : c ≠ '\\' ∧ c ≠ '\'' ∧ c ≠ '"' ∧ c ≠ '$' ∧ c ∉ blankChars := by
    simp only [operatorChars, List.mem_cons, List.not_mem_nil, or_false] at hc
    obtain rfl | rfl | rfl | rfl | rfl | rfl | rfl | rfl := hc <;> decide
  obtain ⟨hescape, hsingle, hdouble, hdollar, hblank⟩ := hplain
  have hstep : words.step c = ⟨.bare, none, first ++ (tokens ++ [.operator c])⟩ := by
    rw [Reader.step, hmode]
    simp only [hescape, hsingle, hdouble, hblank, hc, if_true, if_false, Reader.operator, hflush,
      List.append_assoc]
  rw [ScriptReader.run_append, hrun, ScriptReader.run_cons, ScriptReader.run_nil,
    ScriptReader.step]
  by_cases hparen : c = ')'
  · obtain rfl := hclose hparen
    rw [hparen] at hstep ⊢
    simp [hmode, Frame.read, hstep]
  · simp [hparen, Frame.read, hdollar, ← hstep]

/-- INTERNAL: one stretch after the other. -/
theorem IsClosed.append (h : IsClosed outer text tokens substitutions)
    (h' : IsClosed outer text' tokens' substitutions') :
    IsClosed outer (text ++ text') (tokens ++ tokens') (substitutions ++ substitutions') := by
  intro first before
  rw [ScriptReader.run_append, h, h', List.append_assoc, List.append_assoc]

/-- INTERNAL: a script after a stretch that leaves no word open. -/
theorem IsClosed.script (h : IsClosed outer text tokens substitutions)
    (h' : IsScript outer text' tokens' substitutions') :
    IsScript outer (text ++ text') (tokens ++ tokens') (substitutions ++ substitutions') := by
  intro first before
  obtain ⟨words, hrun, hmode, hflush⟩ := h' (first ++ tokens) (before ++ substitutions)
  refine ⟨words, ?_, hmode, ?_⟩
  · rw [ScriptReader.run_append, h, hrun, List.append_assoc]
  · rw [hflush, List.append_assoc]

/-- INTERNAL: a text that leaves no word open is a script. -/
theorem IsClosed.isScript (h : IsClosed outer text tokens substitutions) :
    IsScript outer text tokens substitutions := by
  intro first before
  exact ⟨_, h first before, rfl, rfl⟩

/-- INTERNAL: no text. -/
theorem isScript_nil (outer : List Frame) : IsScript outer [] [] [] := by
  intro first before
  exact ⟨⟨.bare, none, first⟩, by simp, rfl, by simp [Reader.flush]⟩

/-- Scripts separated by a blank. -/
theorem IsScript.append (h : IsScript outer text tokens substitutions)
    (h' : IsScript outer text' tokens' substitutions') :
    IsScript outer (text ++ [' '] ++ text') (tokens ++ tokens')
      (substitutions ++ substitutions') :=
  h.blank.script h'

/-- The operator of a list of commands of which each is run if the one before it succeeds. -/
def andIf : List Token := [.operator '&', .operator '&']

/-- INTERNAL: the operator between blanks. -/
theorem isScript_andIf : IsScript outer ['&', '&'] andIf [] := by
  have hfirst := (isScript_nil outer).operator (show '&' ∈ operatorChars by decide)
    fun h => absurd h (by decide)
  have hsecond := hfirst.isScript.operator (show '&' ∈ operatorChars by decide)
    fun h => absurd h (by decide)
  exact hsecond.isScript

/-- Two commands of which the second is run if the first succeeds. -/
theorem IsScript.andIf (h : IsScript outer text tokens substitutions)
    (h' : IsScript outer text' tokens' substitutions') :
    IsScript outer (text ++ " && ".toList ++ text') (tokens ++ andIf ++ tokens')
      (substitutions ++ substitutions') := by
  have hall := (h.append isScript_andIf).append h'
  simpa using hall

/-- INTERNAL: words separated by blanks. -/
theorem isScript_words {texts : List (List Char)} {words : List (List QuotedChar)}
    (h : List.Forall₂ (fun text chars => Begins text chars []) texts words) (hne : texts ≠ []) :
    IsScript outer ([' '].intercalate texts) (words.map .word) [] := by
  induction h with
  | nil => exact absurd rfl hne
  | @cons text chars texts words hfirst hrest ih =>
    cases hrest with
    | nil =>
      rw [List.intercalate_singleton]
      exact .word outer hfirst
    | cons hsecond hrest =>
      rw [List.intercalate_cons_cons]
      exact (IsScript.word outer hfirst).append (ih (List.cons_ne_nil _ _))

/-- A command: how it is written, and what the shell reads. -/
structure Command where
  text : String
  tokens : List Token
  substitutions : List Script

/-- The command is read as it says. -/
def Command.IsRead (command : Command) : Prop :=
  IsScript [] command.text.toList command.tokens command.substitutions

/-- Commands of which each is run if the one before it succeeds. -/
theorem isScript_commands {commands : List Command} (h : ∀ command ∈ commands, command.IsRead)
    (hne : commands ≠ []) :
    IsScript [] (" && ".toList.intercalate (commands.map (·.text.toList)))
      (andIf.intercalate (commands.map (·.tokens))) (commands.flatMap (·.substitutions)) := by
  induction commands with
  | nil => exact absurd rfl hne
  | cons command commands ih =>
    have hfirst := h command List.mem_cons_self
    cases commands with
    | nil => simpa [Command.IsRead] using hfirst
    | cons second rest =>
      have hrest := ih (fun c hc => h c (List.mem_cons_of_mem _ hc)) (List.cons_ne_nil _ _)
      simp only [List.map_cons, List.intercalate_cons_cons, List.flatMap_cons] at hrest ⊢
      exact hfirst.andIf hrest

/-- **A text that is a script is read as that script.** -/
theorem readScript_of_isScript {script : String}
    (h : IsScript [] script.toList tokens substitutions) :
    readScript script = some (.mk tokens substitutions) := by
  obtain ⟨words, hrun, hmode, hflush⟩ := h [] []
  have hframe : Frame.fresh = ⟨⟨.bare, none, []⟩, false, []⟩ := rfl
  rw [readScript, hframe, hrun]
  simp only [hmode, Frame.script, hflush, List.nil_append]

end Scripts

/-! ## Substitutions -/

/-- **A command substitution** is read as the script in it, in the midst of a word. -/
theorem Adds.substitution {mode : Mode} {quoting : Quoting} {text : List Char}
    {tokens : List Token} {substitutions : List Script}
    (hmode : mode = .bare ∧ quoting = .bare ∨ mode = .double ∧ quoting = .double)
    (h : ∀ outer, IsScript outer text tokens substitutions) :
    Adds mode ("$(".toList ++ text ++ [')']) [⟨'$', quoting⟩] [.mk tokens substitutions] := by
  intro word tokens' before outer
  have hdollar : ScriptReader.step ⟨⟨⟨mode, some word, tokens'⟩, false, before⟩, outer⟩ '$' =
      ⟨⟨⟨mode, some (word ++ [⟨'$', quoting⟩]), tokens'⟩, true, before⟩, outer⟩ := by
    obtain ⟨rfl, rfl⟩ | ⟨rfl, rfl⟩ := hmode <;>
      simp [ScriptReader.step, Frame.read, Reader.step, Reader.push, blankChars, operatorChars]
  have hopen : ScriptReader.step
      ⟨⟨⟨mode, some (word ++ [⟨'$', quoting⟩]), tokens'⟩, true, before⟩, outer⟩ '(' =
      ⟨.fresh, ⟨⟨mode, some (word ++ [⟨'$', quoting⟩]), tokens'⟩, false, before⟩ :: outer⟩ := by
    simp [ScriptReader.step]
  obtain ⟨words, hrun, hbare, hflush⟩ :=
    h (⟨⟨mode, some (word ++ [⟨'$', quoting⟩]), tokens'⟩, false, before⟩ :: outer) [] []
  show ScriptReader.run _ ('$' :: '(' :: (text ++ [')'])) = _
  rw [ScriptReader.run_cons, ScriptReader.run_cons, hdollar, hopen, ScriptReader.run_append,
    show Frame.fresh = ⟨⟨.bare, none, []⟩, false, []⟩ from rfl, hrun]
  simp [ScriptReader.step, hbare, Frame.script, hflush]

end REnvTools.Lib.ShellScripts
