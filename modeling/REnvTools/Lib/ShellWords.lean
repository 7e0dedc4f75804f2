import Mathlib.Data.List.Forall2

/-!
# How a POSIX shell reads words

The token recognition of the shell command language, as a machine over characters. A
token is an operator or a word, and a word keeps for each of its characters how it was
quoted, since that decides what the shell does with it afterwards. Expansions are not
carried out: the character that begins one stays in the word and is not `Inert` there.

`Reads` says what a stretch of text adds to the word being read. The composition lemmas
(`Reads.append`, `Reads.flatMap`) build the reading of a word from its parts, `Opens`
begins a word, and `tokenize_intercalate` reads a line of words off its words.
-/

set_option autoImplicit false

namespace REnvTools.Lib.ShellWords

/-! ## Characters, words and tokens -/

/-- How a character of a word was quoted. -/
inductive Quoting
  | bare
  | escaped
  | single
  | double
  deriving DecidableEq, Repr

/-- A character of a word. -/
structure QuotedChar where
  char : Char
  quoting : Quoting
  deriving DecidableEq, Repr

/-- A token; an operator of several characters is given as its characters. -/
inductive Token
  | word (chars : List QuotedChar)
  | operator (char : Char)
  deriving DecidableEq, Repr

/-- What a command receives for a word whose characters are all inert. -/
def wordText (chars : List QuotedChar) : String := String.ofList (chars.map (·.char))

/-- The backquote. -/
def backquote : Char := Char.ofNat 96

/-- The characters that form operators. -/
def operatorChars : List Char := ['|', '&', ';', '<', '>', '(', ')', '\n']

/-- The characters that separate words. -/
def blankChars : List Char := [' ', '\t']

/-- The characters that have, or may have, a meaning of their own outside quotes:
operators, blanks, quotes, expansions, patterns, comments, braces and history. -/
def specialChars : List Char :=
  operatorChars ++ blankChars ++
    ['\\', '\'', '"', '$', backquote, '*', '?', '[', ']', '^', '!', '#', '~', '\x7b', '\x7d']

/-- The shell takes the character literally: it is not subject to expansion, pattern
matching, splitting or command separation. Outside quotes only ASCII counts, since what
is a blank elsewhere depends on the locale. -/
def QuotedChar.Inert (c : QuotedChar) : Prop :=
  match c.quoting with
  | .bare => c.char.val < 128 ∧ c.char ∉ specialChars
  | .escaped | .single => True
  | .double => c.char ≠ '$' ∧ c.char ≠ backquote ∧ c.char ≠ '\\' ∧ c.char ≠ '!'

instance (c : QuotedChar) : Decidable c.Inert := by
  unfold QuotedChar.Inert
  split <;> infer_instance

/-! ## The machine -/

/-- Where the reader is. -/
inductive Mode
  | bare
  | bareEscape
  | single
  | double
  | doubleEscape
  | comment
  deriving DecidableEq

/-- The reader: its place, the word it is in, if any, and the tokens so far. -/
structure Reader where
  mode : Mode
  word : Option (List QuotedChar)
  tokens : List Token

namespace Reader

/-- Adds a character to the word, which begins with it if there is none. -/
def push (r : Reader) (c : Char) (quoting : Quoting) : Reader :=
  { r with word := some (r.word.getD [] ++ [⟨c, quoting⟩]) }

/-- Ends the word, if there is one. -/
def flush (r : Reader) : Reader :=
  match r.word with
  | none => r
  | some chars => { r with word := none, tokens := r.tokens ++ [.word chars] }

/-- Ends the word and adds an operator. -/
def operator (r : Reader) (c : Char) : Reader :=
  { r.flush with tokens := r.flush.tokens ++ [.operator c] }

/-- Begins a quotation; the word exists from here on, also when it stays empty. -/
def quote (r : Reader) (mode : Mode) : Reader :=
  { r with mode, word := some (r.word.getD []) }

/-- One character. -/
def step (r : Reader) (c : Char) : Reader :=
  match r.mode with
  | .bare =>
    if c = '\\' then { r with mode := .bareEscape }
    else if c = '\'' then r.quote .single
    else if c = '"' then r.quote .double
    else if c ∈ blankChars then r.flush
    else if c ∈ operatorChars then r.operator c
    else if c = '#' ∧ r.word = none then { r with mode := .comment }
    else r.push c .bare
  | .bareEscape =>
    -- an escaped newline joins two lines and leaves nothing in the word
    if c = '\n' then { r with mode := .bare } else { r.push c .escaped with mode := .bare }
  | .single => if c = '\'' then { r with mode := .bare } else r.push c .single
  | .double =>
    if c = '"' then { r with mode := .bare }
    else if c = '\\' then { r with mode := .doubleEscape }
    else r.push c .double
  | .doubleEscape =>
    if c = '\n' then { r with mode := .double }
    else if c = '$' ∨ c = backquote ∨ c = '"' ∨ c = '\\' then
      { r.push c .escaped with mode := .double }
    else { (r.push '\\' .double).push c .double with mode := .double }
  | .comment => if c = '\n' then { r.operator c with mode := .bare } else r

/-- A stretch of text. -/
def run (r : Reader) (text : List Char) : Reader := text.foldl step r

/-- INTERNAL: no text is read. -/
@[simp] theorem run_nil (r : Reader) : r.run [] = r := by rfl

/-- INTERNAL: the first character is read first. -/
@[simp] theorem run_cons (r : Reader) (c : Char) (text : List Char) :
    r.run (c :: text) = (r.step c).run text := by rfl

/-- A text is read and then what follows it. -/
@[simp] theorem run_append (r : Reader) (text rest : List Char) :
    r.run (text ++ rest) = (r.run text).run rest := by
  simp only [run, List.foldl_append]

end Reader

/-- The tokens of a text; none for a text that ends within a quotation. -/
def tokenize (text : String) : Option (List Token) :=
  let r := Reader.run ⟨.bare, none, []⟩ text.toList
  match r.mode with
  | .bare | .comment => some r.flush.tokens
  | .bareEscape | .single | .double | .doubleEscape => none

/-! ## Reading a word from its parts -/

/-- Within a word, and starting and ending in `mode`, the text adds `chars`. -/
def Reads (mode : Mode) (text : List Char) (chars : List QuotedChar) : Prop :=
  ∀ word tokens, Reader.run ⟨mode, some word, tokens⟩ text = ⟨mode, some (word ++ chars), tokens⟩

/-- Between words, the text begins a word, adds `chars` to it and stays in it. -/
def Opens (text : List Char) (chars : List QuotedChar) : Prop :=
  ∀ tokens, Reader.run ⟨.bare, none, tokens⟩ text = ⟨.bare, some chars, tokens⟩

/-- INTERNAL: no text, no characters. -/
theorem Reads.nil (mode : Mode) : Reads mode [] [] := by
  intro word tokens
  simp

/-- INTERNAL: two stretches one after the other. -/
theorem Reads.append {mode : Mode} {text text' : List Char} {chars chars' : List QuotedChar}
    (h : Reads mode text chars) (h' : Reads mode text' chars') :
    Reads mode (text ++ text') (chars ++ chars') := by
  intro word tokens
  rw [Reader.run_append, h, h', List.append_assoc]

/-- A text written one character at a time is read one character at a time. -/
theorem Reads.flatMap {mode : Mode} (write : Char → List Char) (read : Char → QuotedChar)
    (text : List Char) (h : ∀ c ∈ text, Reads mode (write c) [read c]) :
    Reads mode (text.flatMap write) (text.map read) := by
  induction text with
  | nil => exact Reads.nil mode
  | cons c text ih =>
    have hrest := ih fun c' hc' => h c' (List.mem_cons_of_mem c hc')
    rw [List.flatMap_cons, List.map_cons]
    exact (h c List.mem_cons_self).append hrest

/-- A character that is not special stands for itself. -/
theorem Reads.bare {c : Char} (hc : c ∉ specialChars) : Reads .bare [c] [⟨c, .bare⟩] := by
  intro word tokens
  simp only [specialChars, operatorChars, blankChars, List.mem_append, List.mem_cons,
    List.not_mem_nil, or_false, not_or] at hc
  simp [Reader.step, Reader.push, operatorChars, blankChars, hc]

/-- Between single quotes every other character stands for itself. -/
theorem Reads.single {c : Char} (hc : c ≠ '\'') : Reads .single [c] [⟨c, .single⟩] := by
  intro word tokens
  simp [Reader.step, Reader.push, hc]

/-- A single quote within single quotes: the quotation is left, the quote is given between
double quotes, and the quotation goes on. -/
theorem Reads.single_quote :
    Reads .single ['\'', '"', '\'', '"', '\''] [⟨'\'', .double⟩] := by
  intro word tokens
  simp [Reader.step, Reader.push, Reader.quote]

/-- Between double quotes a character stands for itself unless it ends the quotation or escapes. -/
theorem Reads.double {c : Char} (hquote : c ≠ '"') (hescape : c ≠ '\\') :
    Reads .double [c] [⟨c, .double⟩] := by
  intro word tokens
  simp [Reader.step, Reader.push, hquote, hescape]

/-- A quotation between single quotes, within a word. -/
theorem Reads.quoted {text : List Char} {chars : List QuotedChar} (h : Reads .single text chars) :
    Reads .bare ('\'' :: (text ++ ['\''])) chars := by
  intro word tokens
  have hopen : Reader.step ⟨.bare, some word, tokens⟩ '\'' = ⟨.single, some word, tokens⟩ := by
    simp [Reader.step, Reader.quote]
  rw [Reader.run_cons, hopen, Reader.run_append, h]
  simp [Reader.step]

/-- A quotation between double quotes, within a word. -/
theorem Reads.doubleQuoted {text : List Char} {chars : List QuotedChar}
    (h : Reads .double text chars) : Reads .bare ('"' :: (text ++ ['"'])) chars := by
  intro word tokens
  have hopen : Reader.step ⟨.bare, some word, tokens⟩ '"' = ⟨.double, some word, tokens⟩ := by
    simp [Reader.step, Reader.quote]
  rw [Reader.run_cons, hopen, Reader.run_append, h]
  simp [Reader.step]

/-- A word goes on as it is read. -/
theorem Opens.append {text text' : List Char} {chars chars' : List QuotedChar}
    (h : Opens text chars) (h' : Reads .bare text' chars') :
    Opens (text ++ text') (chars ++ chars') := by
  intro tokens
  rw [Reader.run_append, h, h']

/-- A nonempty text without special characters is a word. -/
theorem Opens.bare {c : Char} {text : List Char} (h : ∀ c' ∈ c :: text, c' ∉ specialChars) :
    Opens (c :: text) ((c :: text).map (⟨·, .bare⟩)) := by
  have hrest : Reads .bare text (text.map (⟨·, .bare⟩)) := by
    have hread := Reads.flatMap (fun c' => [c']) (⟨·, .bare⟩) text
      fun c' hc' => Reads.bare (h c' (List.mem_cons_of_mem c hc'))
    simpa using hread
  have hfirst : ∀ tokens,
      Reader.step ⟨.bare, none, tokens⟩ c = ⟨.bare, some [⟨c, .bare⟩], tokens⟩ := by
    intro tokens
    have hc := h c List.mem_cons_self
    simp only [specialChars, operatorChars, blankChars, List.mem_append, List.mem_cons,
      List.not_mem_nil, or_false, not_or] at hc
    simp [Reader.step, Reader.push, operatorChars, blankChars, hc]
  intro tokens
  rw [Reader.run_cons, hfirst, hrest, List.map_cons, List.singleton_append]

/-- A quotation between single quotes is a word, also an empty one. -/
theorem Opens.single {text : List Char} {chars : List QuotedChar} (h : Reads .single text chars) :
    Opens ('\'' :: (text ++ ['\''])) chars := by
  intro tokens
  have hopen : Reader.step ⟨.bare, none, tokens⟩ '\'' = ⟨.single, some [], tokens⟩ := by
    simp [Reader.step, Reader.quote]
  rw [Reader.run_cons, hopen, Reader.run_append, h]
  simp [Reader.step]

/-! ## A line of words -/

/-- INTERNAL: a blank ends the word. -/
theorem run_blank (chars : List QuotedChar) (tokens : List Token) :
    Reader.run ⟨.bare, some chars, tokens⟩ [' '] = ⟨.bare, none, tokens ++ [.word chars]⟩ := by
  simp [Reader.step, Reader.flush, blankChars]

/-- INTERNAL: the words of a line, with the tokens before it. -/
theorem run_intercalate (texts : List (List Char)) (words : List (List QuotedChar))
    (h : List.Forall₂ Opens texts words) (tokens : List Token) :
    let r := Reader.run ⟨.bare, none, tokens⟩ ([' '].intercalate texts)
    r.mode = .bare ∧ r.flush.tokens = tokens ++ words.map .word := by
  induction h generalizing tokens with
  | nil => simp [Reader.flush]
  | @cons text chars texts words hopens hrest ih =>
    cases hrest with
    | nil =>
      rw [List.intercalate_singleton, hopens]
      simp [Reader.flush]
    | cons hopens' hrest' =>
      rw [List.intercalate_cons_cons, Reader.run_append, Reader.run_append, hopens, run_blank]
      obtain ⟨hmode, htokens⟩ := ih (tokens ++ [.word chars])
      refine ⟨hmode, htokens.trans ?_⟩
      rw [List.append_assoc, List.singleton_append, ← List.map_cons]

/-- INTERNAL: blanks between words add nothing. -/
theorem run_blanks {blanks : List Char} (h : ∀ c ∈ blanks, c ∈ blankChars) (tokens : List Token) :
    Reader.run ⟨.bare, none, tokens⟩ blanks = ⟨.bare, none, tokens⟩ := by
  induction blanks with
  | nil => rfl
  | cons c blanks ih =>
    have hc := h c List.mem_cons_self
    have hstep : Reader.step ⟨.bare, none, tokens⟩ c = ⟨.bare, none, tokens⟩ := by
      simp only [blankChars, List.mem_cons, List.not_mem_nil, or_false] at hc
      obtain rfl | rfl := hc <;> simp [Reader.step, Reader.flush, blankChars]
    rw [Reader.run_cons, hstep, ih fun c' hc' => h c' (List.mem_cons_of_mem c hc')]

/-- **A word among blanks** is the only word of its line. -/
theorem tokenize_word {indent text trail : List Char} {chars : List QuotedChar}
    (hindent : ∀ c ∈ indent, c ∈ blankChars) (htrail : ∀ c ∈ trail, c ∈ blankChars)
    (h : Opens text chars) :
    tokenize (String.ofList (indent ++ text ++ trail)) = some [.word chars] := by
  have hword : Reader.run ⟨.bare, none, []⟩ (indent ++ text) = ⟨.bare, some chars, []⟩ := by
    rw [Reader.run_append, run_blanks hindent, h]
  rw [tokenize, String.toList_ofList, Reader.run_append, hword]
  cases trail with
  | nil => simp [Reader.flush]
  | cons c trail =>
    have hc := htrail c List.mem_cons_self
    have hstep : Reader.step ⟨.bare, some chars, []⟩ c = ⟨.bare, none, [.word chars]⟩ := by
      simp only [blankChars, List.mem_cons, List.not_mem_nil, or_false] at hc
      obtain rfl | rfl := hc <;> simp [Reader.step, Reader.flush, blankChars]
    rw [Reader.run_cons, hstep, run_blanks fun c' hc' => htrail c' (List.mem_cons_of_mem c hc')]
    simp [Reader.flush]

/-- **A line of words separated by blanks reads as its words.** -/
theorem tokenize_intercalate (texts : List String) (words : List (List QuotedChar))
    (h : List.Forall₂ (fun text chars => Opens text.toList chars) texts words) :
    tokenize (" ".intercalate texts) = some (words.map .word) := by
  have hline : (" ".intercalate texts).toList = [' '].intercalate (texts.map String.toList) := by
    rw [String.toList_intercalate]
    rfl
  have hwords : List.Forall₂ Opens (texts.map String.toList) words :=
    List.forall₂_map_left_iff.mpr h
  obtain ⟨hmode, htokens⟩ := run_intercalate _ _ hwords []
  rw [tokenize, hline]
  simp only [hmode, htokens, List.nil_append]

end REnvTools.Lib.ShellWords
