import REnvTools.Lib.ShellWords
import REnvTools.Program.Shell

/-!
# Quoting, read back by the shell

The word a quoted argument is read as: the argument itself, each character literal. An
argument that is written unchanged consists of ASCII characters without a meaning of their
own; any other is written between single quotes, where only the single quote needs care.
-/

set_option autoImplicit false

namespace REnvTools.Analysis

open REnvTools.Lib REnvTools.Lib.ShellWords REnvTools.Program

/-! ## Arguments written unchanged -/

/-- INTERNAL: a portable byte is ASCII. -/
theorem isPortable_lt (byte : UInt8) (h : isPortable byte = true) : byte < 128 := by
  simp only [isPortable, isAsciiAlphanumeric, portableBytes, Bool.or_eq_true, Bool.and_eq_true,
    decide_eq_true_eq, List.contains_iff_mem, UInt8.le_iff_toNat_le] at h
  rw [UInt8.lt_iff_toNat_lt]
  change byte.toNat < 128
  obtain ((h | h) | h) | h := h
  · exact Nat.lt_of_le_of_lt h.2 (by decide)
  · exact Nat.lt_of_le_of_lt h.2 (by decide)
  · exact Nat.lt_of_le_of_lt h.2 (by decide)
  · have hall : (['_', '@', '%', '+', '=', ':', ',', '.', '/', '-'].map Char.toUInt8).all
        (fun byte => decide (byte.toNat < 128)) = true := by
      decide
    exact of_decide_eq_true (List.all_eq_true.mp hall byte h)

/-- INTERNAL: the special characters do not pass the test. -/
theorem isPortable_special (c : Char) (hc : c ∈ specialChars) :
    isPortable (UInt8.ofNat c.toNat) = false := by
  have hall : specialChars.all (fun c => !isPortable (UInt8.ofNat c.toNat)) = true := by
    decide
  have hnot := List.all_eq_true.mp hall c hc
  rwa [Bool.not_eq_true'] at hnot

/-- The characters of an argument that passes the test are ASCII and not special. -/
theorem inert_of_isPortable {argument : String} (h : (utf8Bytes argument).all isPortable = true)
    {c : Char} (hc : c ∈ argument.toList) : QuotedChar.Inert ⟨c, .bare⟩ := by
  have hbytes : ∀ byte ∈ String.utf8EncodeChar c, isPortable byte = true := by
    intro byte hbyte
    exact List.all_eq_true.mp h byte (List.mem_flatMap.mpr ⟨c, hc, hbyte⟩)
  obtain ⟨byte, hbyte⟩ := List.exists_mem_of_ne_nil _ (String.utf8EncodeChar_ne_nil (c := c))
  have hcode := ascii_of_mem_encode hbyte (isPortable_lt byte (hbytes byte hbyte))
  have hascii : c.toNat < 128 := by
    have hlt := UInt8.lt_iff_toNat_lt.mp (isPortable_lt byte (hbytes byte hbyte))
    rw [hcode]
    exact hlt
  refine ⟨UInt32.lt_iff_toNat_lt.mpr hascii, fun hspecial => ?_⟩
  have hpass := hbytes _ (by rw [encode_of_ascii hascii]; exact List.mem_singleton_self _)
  rw [isPortable_special c hspecial] at hpass
  cases hpass

/-! ## The word of an argument -/

/-- The characters of an argument as the shell reads them. -/
def argumentWord (argument : String) : List QuotedChar :=
  if argument ≠ "" ∧ (utf8Bytes argument).all isPortable then argument.toList.map (⟨·, .bare⟩)
  else argument.toList.map fun c => ⟨c, if c = '\'' then .double else .single⟩

/-- The word is the argument. -/
theorem wordText_argumentWord (argument : String) :
    wordText (argumentWord argument) = argument := by
  unfold wordText argumentWord
  split <;> simp [Function.comp_def]

/-- Every character of the word is literal. -/
theorem inert_argumentWord (argument : String) : ∀ c ∈ argumentWord argument, c.Inert := by
  unfold argumentWord
  split
  · rename_i hportable
    intro c hc
    obtain ⟨c', hc', rfl⟩ := List.mem_map.mp hc
    exact inert_of_isPortable hportable.2 hc'
  · intro c hc
    obtain ⟨c', -, rfl⟩ := List.mem_map.mp hc
    by_cases hquote : c' = '\''
    · subst hquote
      decide
    · simp only [QuotedChar.Inert, if_neg hquote]

/-- INTERNAL: between single quotes, the replaced text is read as the argument. -/
theorem reads_replaceChar (argument : String) :
    Reads .single (replaceChar argument '\'' "'\"'\"'").toList
      (argument.toList.map fun c => ⟨c, if c = '\'' then .double else .single⟩) := by
  rw [replaceChar, String.toList_ofList]
  apply Reads.flatMap
  intro c _
  by_cases hquote : c = '\''
  · subst hquote
    exact Reads.single_quote
  · rw [if_neg hquote, if_neg hquote]
    exact Reads.single hquote

/-- What `quote_shell_argument` writes is read as the word of the argument. -/
theorem opens_quoteShellArgument (argument : String) :
    Opens (quoteShellArgument argument).toList (argumentWord argument) := by
  unfold quoteShellArgument argumentWord
  split
  · rename_i hportable
    obtain ⟨c, text, htext⟩ : ∃ c text, argument.toList = c :: text := by
      apply List.exists_cons_of_ne_nil
      intro hnil
      exact hportable.1 (String.toList_eq_nil_iff.mp hnil)
    rw [htext]
    apply Opens.bare
    intro c' hc'
    exact (inert_of_isPortable hportable.2 (htext ▸ hc')).2
  · rw [String.toList_append, String.toList_append]
    exact Opens.single (reads_replaceChar argument)

/-! ## A command line -/

/-- **Quoted arguments separated by blanks are read back as the arguments.** The line has
exactly one word for each argument and no operator, and no character of a word has a
meaning of its own. -/
theorem tokenize_quoted_arguments (arguments : List String) :
    ∃ words : List (List QuotedChar),
      tokenize (" ".intercalate (arguments.map quoteShellArgument)) = some (words.map .word) ∧
      words.map wordText = arguments ∧
      ∀ word ∈ words, ∀ c ∈ word, c.Inert := by
  refine ⟨arguments.map argumentWord, ?_, ?_, ?_⟩
  · apply tokenize_intercalate
    rw [List.forall₂_map_left_iff, List.forall₂_map_right_iff, List.forall₂_same]
    intro argument _
    exact opens_quoteShellArgument argument
  · simp only [List.map_map, Function.comp_def, wordText_argumentWord, List.map_id']
  · intro word hword
    obtain ⟨argument, -, rfl⟩ := List.mem_map.mp hword
    exact inert_argumentWord argument

end REnvTools.Analysis
