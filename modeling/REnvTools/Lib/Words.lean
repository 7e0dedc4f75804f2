import Mathlib.Data.List.Infix
import Mathlib.Data.List.TakeWhile

/-!
# Words

The words of a list: its longest parts without separators (`str::split_whitespace` for white
space). A word stands between separators or at an end of the list, and what stands so is a word
(`exists_of_words_append`, `words_append`). Two words follow each other exactly if nothing but
separators is between them (`infix_words_iff`). A part without a separator is on one side of it
(`infix_append_cons_iff`).
-/

set_option autoImplicit false

namespace REnvTools.Lib

variable {α : Type}

/-- The longest parts without separators. -/
def words (p : α → Bool) (s : List α) : List (List α) := (s.splitOnP p).filter (!·.isEmpty)

/-- A part without separators. -/
def IsWord (p : α → Bool) (w : List α) : Prop := w ≠ [] ∧ ∀ a ∈ w, p a = false

/-- The part ends with a separator, unless it is empty. -/
def EndsApart (p : α → Bool) (s : List α) : Prop := ∀ a ∈ s.getLast?, p a = true

/-- The part begins with a separator, unless it is empty. -/
def BeginsApart (p : α → Bool) (s : List α) : Prop := ∀ a ∈ s.head?, p a = true

instance (p : α → Bool) (w : List α) : Decidable (IsWord p w) :=
  decidable_of_iff (w.isEmpty = false ∧ w.all (fun a => !p a) = true) (by simp [IsWord])

instance (p : α → Bool) (s : List α) : Decidable (EndsApart p s) :=
  decidable_of_iff (s.getLast?.all p = true) (Option.all_eq_true p _)

instance (p : α → Bool) (s : List α) : Decidable (BeginsApart p s) :=
  decidable_of_iff (s.head?.all p = true) (Option.all_eq_true p _)

variable {p : α → Bool}

/-- INTERNAL: no text has no word. -/
@[simp] theorem words_nil : words p [] = [] := by
  unfold words
  rw [List.splitOnP_nil]
  rfl

/-- INTERNAL: a separator cuts the list. -/
theorem words_append_cons {a : α} (ha : p a = true) (s t : List α) :
    words p (s ++ a :: t) = words p s ++ words p t := by
  unfold words
  rw [List.splitOnP_append_cons _ _ ha, List.filter_append]

/-- INTERNAL: a separator in front is dropped. -/
theorem words_cons {a : α} (ha : p a = true) (t : List α) : words p (a :: t) = words p t := by
  have h := words_append_cons ha [] t
  rwa [List.nil_append, words_nil, List.nil_append] at h

/-- A list without separators is one word. -/
theorem words_of_isWord {w : List α} (h : IsWord p w) : words p w = [w] := by
  unfold words
  rw [List.splitOnP_eq_singleton h.2]
  simp [h.1]

/-- Separators have no words. -/
theorem words_of_separators {s : List α} (h : ∀ a ∈ s, p a = true) : words p s = [] := by
  induction s with
  | nil => exact words_nil
  | cons a s ih =>
    rw [words_cons (h a List.mem_cons_self)]
    exact ih fun b hb => h b (List.mem_cons_of_mem a hb)

/-- The words of two parts that a separator keeps apart. -/
theorem words_append {s t : List α} (h : EndsApart p s ∨ BeginsApart p t) :
    words p (s ++ t) = words p s ++ words p t := by
  rcases h with h | h
  · rcases List.eq_nil_or_concat s with rfl | ⟨s, a, rfl⟩
    · simp
    · have ha : p a = true := h a (by simp)
      rw [List.concat_eq_append, List.append_assoc, List.singleton_append, words_append_cons ha,
        words_append_cons ha, words_nil, List.append_nil]
  · cases t with
    | nil => simp
    | cons a t =>
      have ha : p a = true := h a (by simp)
      rw [words_append_cons ha, words_cons ha]

/-- INTERNAL: where the first word stands. -/
theorem exists_of_words_eq_cons {s w : List α} {ws : List (List α)} (h : words p s = w :: ws) :
    IsWord p w ∧ ∃ lead rest, s = lead ++ w ++ rest ∧ (∀ a ∈ lead, p a = true) ∧
      BeginsApart p rest ∧ words p rest = ws := by
  induction s with
  | nil => cases h
  | cons a s ih =>
    cases ha : p a with
    | true =>
      rw [words_cons ha] at h
      obtain ⟨hword, lead, rest, rfl, hlead, hrest⟩ := ih h
      exact ⟨hword, a :: lead, rest, rfl, List.forall_mem_cons.mpr ⟨ha, hlead⟩, hrest⟩
    | false =>
      have hfirst : IsWord p ((a :: s).takeWhile (!p ·)) := by
        refine ⟨by simp [ha], fun b hb => ?_⟩
        simpa using List.mem_takeWhile_imp hb
      have hapart : BeginsApart p ((a :: s).dropWhile (!p ·)) := by
        intro b hb
        have hnot := List.head?_dropWhile_not (!p ·) (a :: s)
        rw [Option.mem_def.mp hb] at hnot
        simpa using hnot
      have hwords : words p (a :: s) = (a :: s).takeWhile (!p ·) ::
          words p ((a :: s).dropWhile (!p ·)) := by
        conv_lhs => rw [← List.takeWhile_append_dropWhile (p := (!p ·)) (l := a :: s)]
        rw [words_append (.inr hapart), words_of_isWord hfirst]
        rfl
      rw [hwords, List.cons.injEq] at h
      obtain ⟨rfl, rfl⟩ := h
      have hparts := (List.takeWhile_append_dropWhile (p := (!p ·)) (l := a :: s)).symm
      exact ⟨hfirst, [], _, hparts, List.forall_mem_nil _, hapart, rfl⟩

/-- INTERNAL: a word does not begin with a separator. -/
theorem IsWord.not_beginsApart {w : List α} (h : IsWord p w) (rest : List α) :
    ¬BeginsApart p (w ++ rest) := by
  obtain ⟨a, w, rfl⟩ := List.exists_cons_of_ne_nil h.1
  intro hapart
  have ha := h.2 a List.mem_cons_self
  rw [hapart a (by simp)] at ha
  cases ha

/-- Where a word stands. -/
theorem exists_of_words_append {s w : List α} {before after : List (List α)}
    (h : words p s = before ++ w :: after) :
    IsWord p w ∧ ∃ first rest, s = first ++ w ++ rest ∧ EndsApart p first ∧ BeginsApart p rest ∧
      words p rest = after := by
  induction before generalizing s with
  | nil =>
    obtain ⟨hword, lead, rest, hs, hlead, hrest, hafter⟩ := exists_of_words_eq_cons h
    exact ⟨hword, lead, rest, hs, fun a ha => hlead a (List.mem_of_mem_getLast? ha), hrest, hafter⟩
  | cons v before ih =>
    obtain ⟨-, lead, rest, rfl, -, hrest, hafter⟩ := exists_of_words_eq_cons h
    obtain ⟨hword, first, last, rfl, hfirst, hlast⟩ := ih hafter
    refine ⟨hword, lead ++ v ++ first, last, by simp, ?_, hlast⟩
    rcases List.eq_nil_or_concat first with rfl | ⟨first, a, rfl⟩
    · exact absurd hrest (hword.not_beginsApart last)
    · intro b hb
      exact hfirst b (by simpa using hb)

/-- **Two words in a row**: nothing but separators is between them. -/
theorem infix_words_iff {s v w : List α} :
    [v, w] <:+: words p s ↔
      IsWord p v ∧ IsWord p w ∧ ∃ first between last, s = first ++ v ++ between ++ w ++ last ∧
        between ≠ [] ∧ (∀ a ∈ between, p a = true) ∧ EndsApart p first ∧ BeginsApart p last := by
  constructor
  · rintro ⟨before, after, h⟩
    rw [List.append_assoc, List.cons_append] at h
    obtain ⟨hv, first, rest, rfl, hfirst, hrest, hwords⟩ := exists_of_words_append h.symm
    obtain ⟨hw, between, last, rfl, hbetween, hlast, -⟩ := exists_of_words_eq_cons hwords
    refine ⟨hv, hw, first, between, last, by simp, ?_, hbetween, hfirst, hlast⟩
    rintro rfl
    exact hw.not_beginsApart last hrest
  · rintro ⟨hv, hw, first, between, last, rfl, hne, hbetween, hfirst, hlast⟩
    have hapart : BeginsApart p (between ++ (w ++ last)) := by
      obtain ⟨a, rest, rfl⟩ := List.exists_cons_of_ne_nil hne
      intro b hb
      rw [List.cons_append, List.head?_cons, Option.mem_some_iff] at hb
      exact hb ▸ hbetween a List.mem_cons_self
    have hends : EndsApart p between :=
      fun a ha => hbetween a (List.mem_of_mem_getLast? ha)
    have hwords : words p (first ++ (v ++ (between ++ (w ++ last)))) =
        words p first ++ ([v] ++ ([] ++ ([w] ++ words p last))) := by
      rw [words_append (.inl hfirst), words_append (.inr hapart), words_of_isWord hv,
        words_append (.inl hends), words_of_separators hbetween, words_append (.inr hlast),
        words_of_isWord hw]
    refine ⟨words p first, words p last, ?_⟩
    simp only [List.append_assoc] at hwords ⊢
    rw [hwords]
    simp

/-! ## Parts without a separator -/

/-- INTERNAL: a beginning without a separator ends before it. -/
theorem prefix_append_cons {a : α} {part s t : List α} (hpart : a ∉ part)
    (h : part <+: s ++ a :: t) : part <+: s := by
  rcases List.prefix_or_prefix_of_prefix h (List.prefix_append s (a :: t)) with hle | hle
  · exact hle
  · obtain ⟨rest, rfl⟩ := hle
    rw [List.prefix_append_right_inj] at h
    cases rest with
    | nil => rw [List.append_nil]
    | cons b rest =>
      obtain ⟨rfl, -⟩ := List.cons_prefix_cons.mp h
      exact absurd (List.mem_append_right _ List.mem_cons_self) hpart

/-- **A part without a separator is on one side of it.** -/
theorem infix_append_cons_iff {a : α} {part s t : List α} (hpart : a ∉ part) :
    part <:+: s ++ a :: t ↔ part <:+: s ∨ part <:+: t := by
  constructor
  · intro h
    induction s with
    | nil =>
      rcases List.infix_cons_iff.mp h with h | h
      · exact .inl (prefix_append_cons (s := []) hpart h).isInfix
      · exact .inr h
    | cons b s ih =>
      rcases List.infix_cons_iff.mp h with h | h
      · exact .inl (prefix_append_cons (s := b :: s) hpart h).isInfix
      · exact (ih h).imp (fun h => List.infix_cons_iff.mpr (.inr h)) id
  · rintro (h | h)
    · exact List.infix_append_of_infix_left h
    · exact List.infix_append_of_infix_right (List.infix_cons_iff.mpr (.inr h))

end REnvTools.Lib
