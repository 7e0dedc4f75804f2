import Mathlib.Algebra.Order.Ring.Nat
import Mathlib.Data.List.DropRight

/-!
# Text

The methods of `str` and `usize` that the program takes texts apart with. A `&str` that is
taken apart is the list of its characters; a number has 64 bits.
-/

set_option autoImplicit false

namespace REnvTools.Program

/-- `str::replace` of one character by a text. -/
def replaceChar (s : String) (pattern : Char) (replacement : String) : String :=
  String.ofList (s.toList.flatMap fun c => if c = pattern then replacement.toList else [c])

/-- `char::is_whitespace`. -/
def isWhitespace (c : Char) : Bool :=
  (9 ≤ c.toNat && c.toNat ≤ 13) || (0x2000 ≤ c.toNat && c.toNat ≤ 0x200a) ||
    [0x20, 0x85, 0xa0, 0x1680, 0x2028, 0x2029, 0x202f, 0x205f, 0x3000].contains c.toNat

/-- `str::trim_start`. -/
def trimStart (s : List Char) : List Char := s.dropWhile isWhitespace

/-- `str::trim_end`. -/
def trimEnd (s : List Char) : List Char := s.rdropWhile isWhitespace

/-- `str::trim`. -/
def trim (s : List Char) : List Char := trimEnd (trimStart s)

/-- INTERNAL: dropping from the left stops at an element that stays. -/
theorem dropWhile_append_cons {α : Type} {p : α → Bool} {a : α} (l l' : List α) (ha : p a = false) :
    (l ++ a :: l').dropWhile p = l.dropWhile p ++ a :: l' := by
  rw [List.dropWhile_append]
  split
  · rename_i hempty
    rw [List.isEmpty_iff.mp hempty, List.dropWhile_cons_of_neg (by simp [ha]), List.nil_append]
  · rfl

/-- INTERNAL: dropping from the right stops at an element that stays. -/
theorem rdropWhile_append_cons {α : Type} {p : α → Bool} {a : α} (l l' : List α)
    (ha : p a = false) :
    (l ++ a :: l').rdropWhile p = l ++ a :: l'.rdropWhile p := by
  have hreverse : (l ++ a :: l').reverse = l'.reverse ++ a :: l.reverse := by simp
  unfold List.rdropWhile
  rw [hreverse, dropWhile_append_cons _ _ ha]
  simp

/-- INTERNAL: what is dropped from the right does not keep the left from being dropped. -/
theorem dropWhile_rdropWhile {α : Type} (p : α → Bool) (l : List α) :
    (l.rdropWhile p).dropWhile p = (l.dropWhile p).rdropWhile p := by
  by_cases hall : ∀ a ∈ l, p a = true
  · rw [List.rdropWhile_eq_nil_iff.mpr hall, List.dropWhile_eq_nil_iff.mpr hall]
    rfl
  · obtain ⟨a, hmem, hfirst⟩ : ∃ a ∈ l, p a = false := by simpa using hall
    obtain ⟨l₁, l₂, rfl⟩ := List.append_of_mem hmem
    rw [rdropWhile_append_cons _ _ hfirst, dropWhile_append_cons _ _ hfirst,
      dropWhile_append_cons _ _ hfirst, rdropWhile_append_cons _ _ hfirst]

/-- A text is blank if trimming leaves nothing. -/
theorem trim_eq_nil {s : List Char} : trim s = [] ↔ ∀ c ∈ s, isWhitespace c = true := by
  unfold trim trimEnd trimStart
  rw [← dropWhile_rdropWhile, List.dropWhile_eq_nil_iff]
  constructor
  · intro h
    apply List.rdropWhile_eq_nil_iff.mp
    by_contra hne
    have hlast := List.rdropWhile_last_not _ _ hne
    exact hlast (h _ (List.getLast_mem hne))
  · intro h
    rw [List.rdropWhile_eq_nil_iff.mpr h]
    simp

/-- INTERNAL: white space after a text is trimmed with it. -/
theorem trimEnd_append {s pad : List Char} (hpad : ∀ c ∈ pad, isWhitespace c = true) :
    trimEnd (s ++ pad) = trimEnd s := by
  unfold trimEnd List.rdropWhile
  rw [List.reverse_append, List.dropWhile_append_of_pos (by simpa using hpad)]

/-- INTERNAL: a text trimmed at its end is trimmed to the same. -/
theorem trim_trimEnd (s : List Char) : trim (trimEnd s) = trim s := by
  unfold trim trimEnd trimStart
  rw [dropWhile_rdropWhile, List.rdropWhile_idempotent]

/-- INTERNAL: a text trimmed at its start is trimmed to the same. -/
theorem trim_trimStart (s : List Char) : trim (trimStart s) = trim s := by
  unfold trim trimStart
  rw [List.dropWhile_idempotent]

/-- INTERNAL: a trimmed text has nothing to trim at its start. -/
theorem trimStart_trim (s : List Char) : trimStart (trim s) = trim s := by
  unfold trim trimEnd trimStart
  rw [dropWhile_rdropWhile, List.dropWhile_idempotent]

/-- INTERNAL: white space around a text is trimmed with it. -/
theorem trim_append_append {s pad pad' : List Char} (hpad : ∀ c ∈ pad, isWhitespace c = true)
    (hpad' : ∀ c ∈ pad', isWhitespace c = true) : trim (pad ++ s ++ pad') = trim s := by
  rw [← trim_trimEnd, trimEnd_append hpad', trim_trimEnd]
  unfold trim trimStart
  rw [List.dropWhile_append_of_pos hpad]

/-- `str::split_once` at a character. -/
def splitOnce (separator : Char) : List Char → Option (List Char × List Char)
  | [] => none
  | c :: s =>
    if c = separator then some ([], s)
    else (splitOnce separator s).map fun parts => (c :: parts.1, parts.2)

/-- INTERNAL: a text is cut at its first separator. -/
theorem splitOnce_append {separator : Char} {s : List Char} (h : separator ∉ s) (t : List Char) :
    splitOnce separator (s ++ separator :: t) = some (s, t) := by
  induction s with
  | nil => simp [splitOnce]
  | cons c s ih =>
    simp only [List.mem_cons, not_or] at h
    rw [List.cons_append, splitOnce, if_neg (Ne.symm h.1), ih h.2]
    rfl

/-- `str::eq_ignore_ascii_case`. -/
def eqIgnoreAsciiCase (s t : List Char) : Bool := decide (s.map Char.toLower = t.map Char.toLower)

/-- The digits of `usize::from_str`, read from the left on 64 bits. -/
def parseDigits : ℕ → List Char → Option ℕ
  | value, [] => some value
  | value, c :: digits =>
    if c.isDigit then
      let value := value * 10 + (c.toNat - '0'.toNat)
      if value < 2 ^ 64 then parseDigits value digits else none
    else none

/-- `str::parse::<usize>`. -/
def parseUsize : List Char → Option ℕ
  | [] | ['+'] => none
  | '+' :: digits => parseDigits 0 digits
  | digits => parseDigits 0 digits

end REnvTools.Program
